import CarRepairShop.Progress
import CarRepairShop.StockConcurrency

/-! # Concurrent line edits

The four line editors read the lines of the order, compute new ones in memory
and replace those stored, claiming whatever version the order has. So two of
them lose no edit as long as each replaces the lines it read: `FreshEdit`.

`Edit` says what an editor needs of the tables and what it makes of them. A
fresh commit among others is such an edit of the tables just before it, and
from these an editor that runs alone does the same edit. By induction over the
commits, a run whose edits are all fresh ends with the lines and the counters
of the serial run in the order of its commits.
-/

namespace CarRepairShop

open Lib Txn Prog

/-! ## Edits -/

/-- The operation edits the lines of order `o`. -/
def Op.editsOrder (o : Uuid) : Op → Bool
  | .addItemToOS osId _ _ | .removeItemFromOS osId _ => osId.column? = some o
  | .addServiceToOS osId _ | .removeServiceFromOS osId _ => osId.column? = some o
  | _ => false

/-- The update that an editor makes of the lines it read. -/
def Op.changes (services : List Uuid) (items : List ItemLine) : Op → ServiceOrderChanges
  | .addItemToOS _ itemId quantity =>
      { items := some (addedLines (entityItems items) itemId quantity) }
  | .removeItemFromOS _ itemId =>
      { items := some ((entityItems items).filter fun l => l.itemId ≠ itemId) }
  | .addServiceToOS _ serviceId =>
      { services := some (entityServices services ++ [⟨serviceId⟩]) }
  | .removeServiceFromOS _ serviceId =>
      { services := some ((entityServices services).filter fun s => s.serviceId ≠ serviceId) }
  | _ => {}

/-- The units of item `i` that an editor of the lines `items` reserves. -/
def Op.units (items : List ItemLine) (i : Uuid) : Op → ℤ
  | .addItemToOS _ itemId quantity => if itemId.column? = some i then quantity else 0
  | .removeItemFromOS _ itemId =>
      if itemId.column? = some i then
        -(((entityItems items).find? fun l => l.itemId = itemId).map (·.quantity)).getD 0
      else 0
  | _ => 0

/-- What an editor checks before it writes. -/
def Op.possible (db : Db) (r : OrderRow) : Op → Prop
  | .addItemToOS _ itemId quantity => ∃ i row, itemId.column? = some i ∧
      db.items.find? i = some row ∧ row.stockQuantity - row.reservedQuantity ≥ quantity
  | .removeItemFromOS _ itemId => ∃ line ∈ r.items, itemId = line.itemId.text
  | .addServiceToOS _ serviceId => (∃ s, serviceId.column? = some s) ∧
      (entityServices r.services).any (fun s => s.serviceId = serviceId) = false
  | .removeServiceFromOS _ serviceId =>
      (entityServices r.services).any (fun s => s.serviceId = serviceId) = true
  | _ => False

/-- The editor `op` can take order `o` from the stored row `r₀` to `r₁`. -/
structure Edit (op : Op) (o : Uuid) (db : Db) (r₀ r₁ : OrderRow) : Prop where
  found : db.orders.find? o = some r₀
  status : r₀.status = .diagnosis
  possible : op.possible db r₀
  revision : Revision (op.changes r₀.services r₀.items) r₀ r₁
  checks : r₁.Checks
  counters : ∀ i row, db.items.find? i = some row → (row.shift (op.units r₀.items i) 0).Checks
  services : (op.changes r₀.services r₀.items).services.isSome = true →
    ∀ s ∈ r₁.services, (db.services.find? s).isSome = true
  items : (op.changes r₀.services r₀.items).items.isSome = true →
    ∀ x ∈ r₁.items, (db.items.find? x.itemId).isSome = true

/-- The tables after that edit. -/
structure EditDone (op : Op) (o : Uuid) (r₀ r₁ : OrderRow) (db db' : Db) : Prop where
  order : db'.orders.find? o = some r₁
  items : ∀ i, db'.items.find? i =
    (db.items.find? i).map fun row => row.shift (op.units r₀.items i) 0
  services : ∀ s, (db'.services.find? s).isSome = (db.services.find? s).isSome

/-- The operation replaces the item lines. -/
def Op.editsItems : Op → Bool
  | .addItemToOS .. | .removeItemFromOS .. => true
  | _ => false

/-- The operation replaces the service lines. -/
def Op.editsServices : Op → Bool
  | .addServiceToOS .. | .removeServiceFromOS .. => true
  | _ => false

/-- A commit that replaces the lines of order `o` it read, and sets no counter
other than the one it read. -/
structure FreshEdit (o : Uuid) (c : ShopCommit) : Prop where
  items : c.op.editsItems = true →
    ∀ r, c.before.orders.find? o = some r → itemLinesRead o c.tx.trace = some r.items
  services : c.op.editsServices = true →
    ∀ r, c.before.orders.find? o = some r → serviceLinesRead o c.tx.trace = some r.services
  counter : ¬ StaleRemoval c

/-! ## A fresh commit is an edit -/

/-- The others neither add to the catalogue nor take from it. -/
def KeepsCatalogue (R : List Write → Db → Db → Prop) : Prop :=
  ∀ ws a b, R ws a b → (∀ i, (b.items.find? i).isSome = (a.items.find? i).isSome) ∧
    ∀ s, (b.services.find? s).isSome = (a.services.find? s).isSome

section Fresh

variable {R : List Write → Db → Db → Prop} {G : ShopTx → Stmt → Db → Prop}
variable {op : Op} {o : Uuid} {result : Outcome} {tx : ShopTx} {db : Db}

theorem KeepsCatalogue.item (hR : KeepsCatalogue R) {i : Uuid} (h : ItemThere R db i) :
    (db.items.find? i).isSome = true := by
  rcases h with ⟨d, hd, hsome⟩
  rw [(hR [] d db hd).1 i]
  exact hsome

theorem KeepsCatalogue.service (hR : KeepsCatalogue R) {s : Uuid} (h : ServiceThere R db s) :
    (db.services.find? s).isSome = true := by
  rcases h with ⟨d, hd, hsome⟩
  rw [(hR [] d db hd).2 s]
  exact hsome

theorem KeepsCatalogue.gone (hR : KeepsCatalogue R) {i : Uuid}
    (h : Was R (fun d => d.items.find? i = none) db) : db.items.find? i = none := by
  rcases h with ⟨d, hd, hnone⟩
  have hsome := (hR [] d db hd).1 i
  rw [hnone] at hsome
  exact Option.not_isSome_iff_eq_none.mp (by simp [hsome])

theorem Edited.services_same {ids : List Uuid} {lines : List ItemLine} {data : ServiceOrderChanges}
    {r₀ r₁ : OrderRow} {itemWrites : List Write}
    (h : Edited R G o ids lines data r₀ r₁ itemWrites tx db) (s : Uuid) :
    (postgres.applyAll db tx.writes).services.find? s = db.services.find? s := by
  have hnone : lastService tx.writes s = none := by
    rcases h.writes with ⟨ws, hws, hord⟩
    rw [hws, lastService, lastOf_append, show lastOf (Write.service? s) ws = none from hord.service s,
      show lastOf (Write.service? s) itemWrites = none from h.itemWrites.1.service s]
    rfl
  rw [applyAll_services, hnone]
  rfl

/-- An editor of services writes no item. -/
theorem Edited.items_same {ids : List Uuid} {lines : List ItemLine} {data : ServiceOrderChanges}
    {r₀ r₁ : OrderRow} (h : Edited R G o ids lines data r₀ r₁ [] tx db) (i : Uuid) :
    (postgres.applyAll db tx.writes).items.find? i = db.items.find? i := by
  have hnone : lastItem tx.writes i = none := by
    rcases h.writes with ⟨ws, hws, hord⟩
    rw [hws, List.nil_append]
    exact hord.item i
  rw [applyAll_items, hnone]
  rfl

/-- An editor that replaced the lines stored, and moved the counters by its own
units, made an edit. -/
theorem Edited.edit {ids : List Uuid} {lines : List ItemLine} {data : ServiceOrderChanges}
    {r₀ r₁ : OrderRow} {itemWrites : List Write} (hR : KeepsCatalogue R)
    (h : Edited R G o ids lines data r₀ r₁ itemWrites tx db) (hstatus : r₀.status = .diagnosis)
    (hdata : op.changes r₀.services r₀.items = data) (hpossible : op.possible db r₀)
    (hitems : ∀ i, (postgres.applyAll db tx.writes).items.find? i =
      (db.items.find? i).map fun row => row.shift (op.units r₀.items i) 0) :
    Edit op o db r₀ r₁ ∧ EditDone op o r₀ r₁ db (postgres.applyAll db tx.writes) := by
  constructor
  · constructor
    · exact h.commit.found
    · exact hstatus
    · exact hpossible
    · rw [hdata]
      exact h.commit.revision
    · exact (checks_of_lastOrder h.commit.order).1
    · intro i row hrow
      have hafter := hitems i
      rw [hrow, Option.map_some] at hafter
      exact Table.check_of_find? hafter
    · rw [hdata]
      intro hsome s hs
      exact hR.service (h.servicesThere hsome s hs)
    · rw [hdata]
      intro hsome x hx
      exact hR.item (h.itemsThere hsome x hx)
  · constructor
    · rw [applyAll_orders, h.commit.order]
      rfl
    · exact hitems
    · intro s
      rw [h.services_same]

/-- An edit of the services leaves the counters. -/
theorem Edited.counters_same {ids : List Uuid} {lines : List ItemLine} {data : ServiceOrderChanges}
    {r₀ r₁ : OrderRow} (h : Edited R G o ids lines data r₀ r₁ [] tx db)
    (hunits : ∀ i, op.units r₀.items i = 0) (i : Uuid) :
    (postgres.applyAll db tx.writes).items.find? i =
      (db.items.find? i).map fun row => row.shift (op.units r₀.items i) 0 := by
  rw [h.items_same, hunits i]
  cases db.items.find? i with
  | none => rfl
  | some row => simp

/-- What a removal that sets the counter it read does to the counters. -/
theorem ItemRemoved.counters {itemId osId : IdText} {line : ItemLine} {ids : List Uuid}
    {lines : List ItemLine} {r₀ r₁ : OrderRow} {itemWrites : List Write} {i : ℕ}
    (hR : KeepsCatalogue R) (h : ItemRemoved R G o itemId line ids lines r₀ r₁ itemWrites tx db)
    (hline : line ∈ r₀.items)
    (hfresh : ¬ StaleRemoval ⟨i, .removeItemFromOS osId itemId, result, tx, db⟩) (j : Uuid) :
    (postgres.applyAll db tx.writes).items.find? j =
      (db.items.find? j).map fun row =>
        row.shift (Op.units r₀.items j (.removeItemFromOS osId itemId)) 0 := by
  have hcol : itemId.column? = some line.itemId := by
    rw [h.item]
    rfl
  have hunits : Op.units r₀.items j (.removeItemFromOS osId itemId)
      = unitsAt line.itemId (-line.quantity) j := by
    have hfind := find_entityItems (one_line_per_item h.edited.commit.found) hline
    rw [← h.item] at hfind
    rw [Op.units, hfind, hcol]
    simp [unitsAt, eq_comm]
  rw [hunits]
  rcases h.counter with ⟨hnone, hgone⟩ | ⟨readRow, row, hcounter⟩
  · -- the item is not in the catalogue, and no counter is written
    have hmissing := hR.gone hgone
    have huntouched : lastItem tx.writes j = none := by
      rcases h.edited.writes with ⟨ws, hws, hord⟩
      rw [hws, hnone, List.nil_append]
      exact hord.item j
    rw [applyAll_items, huntouched]
    by_cases hj : j = line.itemId
    · rw [hj, hmissing]
      rfl
    · rw [unitsAt, if_neg hj]
      cases db.items.find? j with
      | none => rfl
      | some row => simp
  · have hread : readRow.reservedQuantity = row.reservedQuantity := by
      by_contra hne
      exact hfresh ⟨osId, itemId, rfl, line.itemId, hcol, readRow, row, hcounter.read,
        hcounter.found, hne⟩
    have hafter : (postgres.applyAll db tx.writes).items.find? j =
        if j = line.itemId then
          some { row with reservedQuantity := readRow.reservedQuantity - line.quantity }
        else db.items.find? j := hcounter.only.after j
    rw [hafter]
    by_cases hj : j = line.itemId
    · rw [if_pos hj, hj, hcounter.found, Option.map_some, unitsAt, if_pos rfl, hread]
      simp [ItemRow.shift, sub_eq_add_neg]
    · rw [if_neg hj, unitsAt, if_neg hj]
      cases db.items.find? j with
      | none => rfl
      | some row => simp

/-- An editor of order `o` edits no other order. -/
theorem edited_order {osId : IdText} {o o' : Uuid} (ho : osId.column? = some o')
    (hop : decide (osId.column? = some o) = true) : o' = o :=
  Option.some.inj (ho.symm.trans (of_decide_eq_true hop))

/-- A fresh commit of an editor of order `o` is an edit of the tables just
before it. -/
theorem Committed.edit (hR : KeepsCatalogue R) (h : Committed R G op result tx db)
    (hop : op.editsOrder o = true)
    (hstatus : ∀ r, db.orders.find? o = some r → r.status = .diagnosis) {i : ℕ}
    (hfresh : FreshEdit o ⟨i, op, result, tx, db⟩) :
    ∃ r₀ r₁, Edit op o db r₀ r₁ ∧ EditDone op o r₀ r₁ db (postgres.applyAll db tx.writes) := by
  cases op with
  | addItemToOS osId itemId quantity =>
      rcases h with ⟨o', k, ids, lines, r₀, r₁, ws, ho, hadd⟩
      obtain rfl := edited_order ho hop
      have hread := hfresh.items rfl r₀ hadd.edited.commit.found
      have hlines : lines = r₀.items := Option.some.inj (hadd.edited.itemsRead.symm.trans hread)
      refine ⟨r₀, r₁, hadd.edited.edit hR (hstatus r₀ hadd.edited.commit.found) ?_ ?_ ?_⟩
      · rw [hlines]
        rfl
      · rcases hadd.available with ⟨row, hrow, havailable⟩
        exact ⟨k, row, hadd.item, hrow, havailable⟩
      · intro j
        rw [hadd.shift.after j]
        have hunits : Op.units r₀.items j (.addItemToOS osId itemId quantity)
            = unitsAt k quantity j := by
          simp only [Op.units, hadd.item, Option.some.injEq, unitsAt, eq_comm]
        rw [hunits]
  | removeItemFromOS osId itemId =>
      rcases h with ⟨o', line, ids, lines, r₀, r₁, ws, ho, hrem⟩
      obtain rfl := edited_order ho hop
      have hread := hfresh.items rfl r₀ hrem.edited.commit.found
      have hlines : lines = r₀.items := Option.some.inj (hrem.edited.itemsRead.symm.trans hread)
      have hmem : line ∈ r₀.items := by
        rw [← hlines]
        exact hrem.inOrder
      refine ⟨r₀, r₁, hrem.edited.edit hR (hstatus r₀ hrem.edited.commit.found) ?_ ?_ ?_⟩
      · rw [hlines]
        rfl
      · exact ⟨line, hmem, hrem.item⟩
      · exact hrem.counters hR hmem hfresh.counter
  | addServiceToOS osId serviceId =>
      rcases h with ⟨o', ids, lines, r₀, r₁, ho, hadd⟩
      obtain rfl := edited_order ho hop
      have hread := hfresh.services rfl r₀ hadd.edited.commit.found
      have hids : ids = r₀.services := Option.some.inj (hadd.edited.servicesRead.symm.trans hread)
      refine ⟨r₀, r₁, hadd.edited.edit hR (hstatus r₀ hadd.edited.commit.found) ?_ ?_ ?_⟩
      · rw [hids]
        rfl
      · have hnew := hadd.isNew
        rw [hids] at hnew
        exact ⟨hadd.named, hnew⟩
      · exact hadd.edited.counters_same fun _ => rfl
  | removeServiceFromOS osId serviceId =>
      rcases h with ⟨o', ids, lines, r₀, r₁, ho, hrem⟩
      obtain rfl := edited_order ho hop
      have hread := hfresh.services rfl r₀ hrem.edited.commit.found
      have hids : ids = r₀.services := Option.some.inj (hrem.edited.servicesRead.symm.trans hread)
      refine ⟨r₀, r₁, hrem.edited.edit hR (hstatus r₀ hrem.edited.commit.found) ?_ ?_ ?_⟩
      · rw [hids]
        rfl
      · have hthere := hrem.there
        rw [hids] at hthere
        exact hthere
      · exact hrem.edited.counters_same fun _ => rfl
  | _ => cases hop

end Fresh

/-! ## An editor alone -/

section Alone

variable {op : Op} {o : Uuid} {result : Outcome} {tx : ShopTx} {db : Db}

theorem keepsCatalogue_alone : KeepsCatalogue Alone := by
  rintro ws a b rfl
  exact ⟨fun _ => rfl, fun _ => rfl⟩

/-- Alone, an editor reads the lines that are there when it commits. -/
theorem Edited.reads {ids : List Uuid} {lines : List ItemLine} {data : ServiceOrderChanges}
    {r₀ r₁ r : OrderRow} {itemWrites : List Write}
    (h : Edited Alone AnyStep o ids lines data r₀ r₁ itemWrites tx db)
    (hr : db.orders.find? o = some r) :
    itemLinesRead o tx.trace = some r.items ∧ serviceLinesRead o tx.trace = some r.services := by
  rcases was_alone.mp h.readServices with ⟨r', hr', hids⟩
  rw [hr, Option.some.injEq] at hr'
  rw [h.commit.found, Option.some.injEq] at hr
  rw [h.itemsRead, h.servicesRead, ← h.read_lines, ← hids, ← hr', hr]
  exact ⟨rfl, rfl⟩

/-- Alone, every edit is fresh. -/
theorem Committed.fresh (h : Committed Alone AnyStep op result tx db)
    (hop : op.editsOrder o = true) (i : ℕ) : FreshEdit o ⟨i, op, result, tx, db⟩ := by
  cases op with
  | addItemToOS osId itemId quantity =>
      rcases h with ⟨o', k, ids, lines, r₀, r₁, ws, ho, hadd⟩
      obtain rfl := edited_order ho hop
      constructor
      · intro _ r hr
        exact (hadd.edited.reads hr).1
      · intro hno
        cases hno
      · rintro ⟨osId', itemId', hremoval, -⟩
        cases hremoval
  | removeItemFromOS osId itemId =>
      rcases h with ⟨o', line, ids, lines, r₀, r₁, ws, ho, hrem⟩
      obtain rfl := edited_order ho hop
      constructor
      · intro _ r hr
        exact (hrem.edited.reads hr).1
      · intro hno
        cases hno
      · rintro ⟨osId', itemId', hremoval, k, hk, readRow, row, hread, hrow, hne⟩
        cases hremoval
        have hcol : itemId.column? = some line.itemId := by
          rw [hrem.item]
          rfl
        rw [hcol, Option.some.injEq] at hk
        have hrow' : db.items.find? k = some row := hrow
        have hread' : itemRowRead k tx.trace = some (some readRow) := hread
        rw [← hk] at hrow' hread'
        rcases hrem.counter with ⟨-, hgone⟩ | ⟨readRow₁, row₁, hcounter⟩
        · rw [was_alone.mp hgone] at hrow'
          cases hrow'
        · -- what was read is what is there
          have hbefore := was_alone.mp hcounter.readBefore
          rw [hrow', Option.some.injEq] at hbefore
          rw [hcounter.read, Option.some.injEq, Option.some.injEq] at hread'
          exact hne (by rw [← hread', hbefore])
  | addServiceToOS osId serviceId =>
      rcases h with ⟨o', ids, lines, r₀, r₁, ho, hadd⟩
      obtain rfl := edited_order ho hop
      constructor
      · intro hno
        cases hno
      · intro _ r hr
        exact (hadd.edited.reads hr).2
      · rintro ⟨osId', itemId', hremoval, -⟩
        cases hremoval
  | removeServiceFromOS osId serviceId =>
      rcases h with ⟨o', ids, lines, r₀, r₁, ho, hrem⟩
      obtain rfl := edited_order ho hop
      constructor
      · intro hno
        cases hno
      · intro _ r hr
        exact (hrem.edited.reads hr).2
      · rintro ⟨osId', itemId', hremoval, -⟩
        cases hremoval
  | _ => cases hop

/-! ### It succeeds -/

/-- An order that is there is read. -/
theorem findOSOrThrow_succeeds {osId : IdText} {r : OrderRow} (ho : osId.column? = some o)
    (hr : db.orders.find? o = some r) :
    (findOSOrThrow osId).Succeeds postgres (fun os v' => os = r.entity ∧ v' = db) db := by
  unfold findOSOrThrow
  refine (ServiceOrderRepository.findById_succeeds ho hr).seq ?_
  rintro os v' ⟨rfl, rfl⟩
  exact ⟨rfl, rfl⟩

/-- The update of an edit goes through, on any tables that differ from those of
the edit in the counters only. -/
theorem Edit.update_succeeds {r₀ r₁ : OrderRow} {osId : IdText} {data : ServiceOrderChanges}
    {v : Db} (h : Edit op o db r₀ r₁) (ho : osId.column? = some o)
    (hdata : data = op.changes r₀.services r₀.items) (hv : v = { db with items := v.items })
    (hitems : ∀ i, (v.items.find? i).isSome = (db.items.find? i).isSome) :
    (ServiceOrderRepository.update osId data).Succeeds postgres (fun _ _ => True) v := by
  subst hdata
  have hfound : v.orders.find? o = some r₀ := by
    rw [hv]
    exact h.found
  refine (ServiceOrderRepository.update_succeeds ho hfound (Or.inl rfl) h.revision h.checks ?_
    ?_).mono fun _ _ _ => trivial
  · intro hsome s hs
    rw [hv]
    exact h.services hsome s hs
  · intro hsome x hx
    rw [hitems]
    exact h.items hsome x hx

theorem MovedOne.isSome {v v' : Db} {i : Uuid} {dr ds : ℤ} (h : MovedOne v i dr ds v') (j : Uuid) :
    (v'.items.find? j).isSome = (v.items.find? j).isSome := by
  rw [h.items j, Option.isSome_map]

/-- The four editors start alike: they read the order, which is in diagnosis. -/
theorem Edit.opened {α : Type} {osId : IdText} {r₀ r₁ : OrderRow} {refused : Work α}
    {k : ServiceOrder → Work α} (h : Edit op o db r₀ r₁) (ho : osId.column? = some o)
    (hk : (k r₀.entity).Succeeds postgres (fun _ _ => True) db) :
    (findOSOrThrow osId >>= fun os => if os.status ≠ .diagnosis then refused else k os).Succeeds
      postgres (fun _ _ => True) db := by
  refine (findOSOrThrow_succeeds ho h.found).seq ?_
  rintro os v' ⟨rfl, rfl⟩
  have hdiagnosis : r₀.entity.status = .diagnosis := h.status
  rw [if_neg (by simp [hdiagnosis])]
  exact hk

/-- What an edit needs is enough for the editor to succeed. -/
theorem Edit.succeeds {r₀ r₁ : OrderRow} (h : Edit op o db r₀ r₁) (hop : op.editsOrder o = true) :
    (program op).Succeeds postgres (fun _ _ => True) db := by
  cases op with
  | addItemToOS osId itemId quantity =>
      have ho : osId.column? = some o := of_decide_eq_true hop
      rcases h.possible with ⟨i, row, hi, hrow, havailable⟩
      refine Succeeds.seq (P := fun _ _ => True) ?_ fun _ _ _ => trivial
      unfold AddItemToOS.execute
      refine h.opened ho ?_
      refine (ItemRepository.findById_succeeds hi).seq ?_
      rintro item v' ⟨rfl, rfl⟩
      simp only [hrow, Option.map_some]
      have hchecks := h.counters i row hrow
      rw [Op.units, if_pos hi] at hchecks
      refine (ItemRepository.reserve_succeeds hi hrow havailable hchecks).seq ?_
      rintro reserved v' ⟨rfl, hmoved⟩
      exact h.update_succeeds ho rfl hmoved.rest hmoved.isSome
  | removeItemFromOS osId itemId =>
      have ho : osId.column? = some o := of_decide_eq_true hop
      rcases h.possible with ⟨line, hline, hitem⟩
      have hi : itemId.column? = some line.itemId := by
        rw [hitem]
        rfl
      have hfind : r₀.entity.items.find? (fun i => i.itemId = itemId)
          = some ⟨line.itemId.text, line.quantity⟩ := by
        rw [hitem]
        exact find_entityItems (one_line_per_item h.found) hline
      refine Succeeds.seq (P := fun _ _ => True) ?_ fun _ _ _ => trivial
      unfold RemoveItemFromOS.execute
      refine h.opened ho ?_
      simp only [hfind]
      refine (ItemRepository.findById_succeeds hi).seq ?_
      rintro item v' ⟨rfl, rfl⟩
      cases hrow : v'.items.find? line.itemId with
      | none => exact h.update_succeeds ho rfl rfl fun _ => rfl
      | some row =>
          -- the counter is set to what it is, less the line
          have hchecks := h.counters line.itemId row hrow
          have hunits : Op.units r₀.items line.itemId (.removeItemFromOS osId itemId)
              = row.reservedQuantity - line.quantity - row.reservedQuantity := by
            rw [Op.units, if_pos hi, show (entityItems r₀.items).find? (fun l => l.itemId = itemId)
              = some ⟨line.itemId.text, line.quantity⟩ from hfind]
            simp only [Option.map_some, Option.getD_some]
            omega
          rw [hunits] at hchecks
          refine (ItemRepository.setReserved_succeeds hi hrow hchecks).seq ?_
          intro _ v'' hmoved
          exact h.update_succeeds ho rfl hmoved.rest hmoved.isSome
  | addServiceToOS osId serviceId =>
      have ho : osId.column? = some o := of_decide_eq_true hop
      -- the new line is among those the catalogue backs
      have hnew := h.revision.newServices _ rfl
      rcases h.possible with ⟨⟨s, hcol⟩, hpossible⟩
      have hmem : some s ∈ r₁.services.map some := by
        rw [hnew]
        simp [IdText.stored?_of_column? hcol]
      have hsome := h.services rfl s (by simpa using hmem)
      rcases Option.isSome_iff_exists.mp hsome with ⟨row, hrow⟩
      refine Succeeds.seq (P := fun _ _ => True) ?_ fun _ _ _ => trivial
      unfold AddServiceToOS.execute
      refine h.opened ho ?_
      refine (ServiceRepository.findById_succeeds hcol).seq ?_
      rintro service v' ⟨rfl, rfl⟩
      simp only [hrow, Option.map_some]
      have hpossible : r₀.entity.services.any (fun s => s.serviceId = serviceId) = false := hpossible
      rw [if_neg (by simp only [hpossible, Bool.false_eq_true, not_false_eq_true])]
      exact h.update_succeeds ho rfl rfl fun _ => rfl
  | removeServiceFromOS osId serviceId =>
      have ho : osId.column? = some o := of_decide_eq_true hop
      refine Succeeds.seq (P := fun _ _ => True) ?_ fun _ _ _ => trivial
      unfold RemoveServiceFromOS.execute
      refine h.opened ho ?_
      have hpossible : r₀.entity.services.any (fun s => s.serviceId = serviceId) = true := h.possible
      rw [if_pos hpossible]
      exact h.update_succeeds ho rfl rfl fun _ => rfl
  | _ => cases hop

/-! ### It makes the same edit -/

/-- An update that sets no status makes one row only. -/
theorem Revision.unique {data : ServiceOrderChanges} {r₀ r₁ r₁' : OrderRow}
    (h : Revision data r₀ r₁) (h' : Revision data r₀ r₁') (hstatus : data.status = none) :
    r₁ = r₁' := by
  have hcolumns : r₁.toOrderColumns = r₁'.toOrderColumns := h.columns.trans h'.columns.symm
  have hservices : r₁.services = r₁'.services := by
    cases hdata : data.services with
    | none => rw [h.services hdata, h'.services hdata]
    | some l =>
        have hmap := (h.newServices l hdata).trans (h'.newServices l hdata).symm
        exact List.map_injective_iff.mpr (Option.some_injective _) hmap
  have hitems : r₁.items = r₁'.items := by
    cases hdata : data.items with
    | none => rw [h.items hdata, h'.items hdata]
    | some l =>
        have hmap := (h.newItems l hdata).trans (h'.newItems l hdata).symm
        refine List.map_injective_iff.mpr ?_ hmap
        rintro ⟨i, q⟩ ⟨i', q'⟩ heq
        simpa using heq
  have hhistory : r₁.history = r₁'.history := by
    rcases h.history with ⟨t, ht⟩
    rcases h'.history with ⟨t', ht'⟩
    rw [ht, ht', hstatus]
    rfl
  rcases r₁ with ⟨c, s, i, l⟩
  rcases r₁' with ⟨c', s', i', l'⟩
  simp only at hcolumns hservices hitems hhistory
  rw [hcolumns, hservices, hitems, hhistory]

/-- Editors set no status. -/
theorem Op.changes_status (services : List Uuid) (items : List ItemLine) :
    (op.changes services items).status = none := by
  cases op <;> rfl

/-- Alone, at any time, the editor succeeds and makes its edit. -/
theorem Edit.alone {w : World} {r₀ r₁ : OrderRow} (h : Edit op o w.db r₀ r₁)
    (hop : op.editsOrder o = true) (now : ℕ) :
    ∃ result w', w.attempt now (program op) = .ok (result, w') ∧
      EditDone op o r₀ r₁ w.db w'.db := by
  have hview : (program op).Succeeds postgres (fun _ _ => True) (postgres.view {} w.db) :=
    h.succeeds hop
  rcases hview.run now w.nextId with ⟨fin, hrun, -⟩
  have hcommitted : Committed Alone AnyStep op fin.value fin.tx w.db := by
    have hens := program_ensures (G := AnyStep) shopInterference_alone op w.db
    exact run_ensures (fun _ _ => rfl) (fun _ _ _ => trivial) hens hrun
  have hstatus : ∀ r, w.db.orders.find? o = some r → r.status = .diagnosis := by
    intro r hr
    rw [h.found, Option.some.injEq] at hr
    rw [← hr]
    exact h.status
  rcases hcommitted.edit keepsCatalogue_alone hop hstatus (hcommitted.fresh hop 0)
    with ⟨r₀', r₁', hedit, hdone⟩
  have hr₀ : r₀ = r₀' := by
    have hfound := h.found
    rw [hedit.found, Option.some.injEq] at hfound
    exact hfound.symm
  subst hr₀
  have hr₁ : r₁ = r₁' := h.revision.unique hedit.revision (op.changes_status _ _)
  subst hr₁
  refine ⟨fin.value, ⟨postgres.applyAll w.db fin.tx.writes, fin.nextId⟩, ?_, hdone⟩
  unfold World.attempt
  rw [hrun]

/-! ### What an edit depends on -/

/-- Two databases with the same order `o`, the same counters and the same
catalogue. -/
structure LinesAgree (o : Uuid) (a b : Db) : Prop where
  order : a.orders.find? o = b.orders.find? o
  items : ∀ i, a.items.find? i = b.items.find? i
  services : ∀ s, (a.services.find? s).isSome = (b.services.find? s).isSome

theorem LinesAgree.refl (a : Db) : LinesAgree o a a := ⟨rfl, fun _ => rfl, fun _ => rfl⟩

/-- An edit of one is an edit of the other. -/
theorem Edit.transfer {a b : Db} {r₀ r₁ : OrderRow} (h : Edit op o a r₀ r₁)
    (hab : LinesAgree o a b) : Edit op o b r₀ r₁ where
  found := by rw [← hab.order, h.found]
  status := h.status
  possible := by
    have hpossible := h.possible
    cases op with
    | addItemToOS osId itemId quantity =>
        rcases hpossible with ⟨i, row, hi, hrow, havailable⟩
        exact ⟨i, row, hi, (hab.items i).symm.trans hrow, havailable⟩
    | _ => exact hpossible
  revision := h.revision
  checks := h.checks
  counters := by
    intro i row hrow
    exact h.counters i row ((hab.items i).trans hrow)
  services := by
    intro hsome s hs
    rw [← hab.services]
    exact h.services hsome s hs
  items := by
    intro hsome x hx
    rw [← hab.items]
    exact h.items hsome x hx

/-- The same edit of both leaves both the same. -/
theorem LinesAgree.edited {a a' b b' : Db} {r₀ r₁ : OrderRow} (h : LinesAgree o a b)
    (ha : EditDone op o r₀ r₁ a a') (hb : EditDone op o r₀ r₁ b b') : LinesAgree o a' b' where
  order := ha.order.trans hb.order.symm
  items := by
    intro i
    rw [ha.items, hb.items, h.items]
  services := by
    intro s
    rw [ha.services, hb.services, h.services]

/-- The reserved units of item `i` that are not on the lines of order `o`. -/
def Db.unbacked (db : Db) (o i : Uuid) : ℤ :=
  ((db.items.find? i).map (·.reservedQuantity)).getD 0 -
    ((db.orders.find? o).map fun r => lineUnits r.items i).getD 0

/-- An edit reserves the units it puts on the lines. -/
theorem Edit.lines {r₀ r₁ : OrderRow} (h : Edit op o db r₀ r₁) (hop : op.editsOrder o = true)
    (i : Uuid) : lineUnits r₁.items i = lineUnits r₀.items i + op.units r₀.items i := by
  have hnodup := one_line_per_item h.found
  cases op with
  | addItemToOS osId itemId quantity =>
      rcases h.possible with ⟨k, row, hk, -, -⟩
      rw [lineUnits_of_columns (h.revision.newItems _ rfl), unitsOf_addedLines hnodup hk]
      simp only [Op.units, hk, unitsAt, Option.some.injEq, eq_comm]
  | removeItemFromOS osId itemId =>
      rcases h.possible with ⟨line, hline, hitem⟩
      subst hitem
      rw [lineUnits_of_columns (h.revision.newItems _ rfl), unitsOf_removed hnodup hline, Op.units,
        find_entityItems hnodup hline]
      simp only [Uuid.column?_text, Option.some.injEq, Option.map_some, Option.getD_some, unitsAt,
        eq_comm (a := i)]
      split <;> omega
  | addServiceToOS osId serviceId =>
      rw [h.revision.items rfl]
      exact (add_zero _).symm
  | removeServiceFromOS osId serviceId =>
      rw [h.revision.items rfl]
      exact (add_zero _).symm
  | _ => cases hop

/-- So no unit is left without a line. -/
theorem Edit.unbacked {db' : Db} {r₀ r₁ : OrderRow} (h : Edit op o db r₀ r₁)
    (hop : op.editsOrder o = true) (hdone : EditDone op o r₀ r₁ db db') {i : Uuid}
    (hi : (db.items.find? i).isSome = true) : db'.unbacked o i = db.unbacked o i := by
  rcases Option.isSome_iff_exists.mp hi with ⟨row, hrow⟩
  unfold Db.unbacked
  rw [hdone.order, hdone.items, h.found, hrow]
  simp only [Option.map_some, Option.getD_some, ItemRow.shift_reservedQuantity, h.lines hop i]
  omega

end Alone

/-! ## Every run -/

/-- The runs of the editors of order `o`. -/
def editGuard (o : Uuid) : ShopGuard where
  launch op := op.editsOrder o
  stmt _ _ _ _ := true

/-- Beyond what every unit of work relies on: editors leave the catalogue. -/
def EditRely (ws : List Write) (a b : Db) : Prop :=
  Rely ws a b ∧ (∀ i, (b.items.find? i).isSome = (a.items.find? i).isSome) ∧
    ∀ s, (b.services.find? s).isSome = (a.services.find? s).isSome

theorem shopInterference_edit : ShopInterference EditRely where
  refl ws db := ⟨Rely.refl ws db, fun _ => rfl, fun _ => rfl⟩
  trans _ _ _ _ h h' := ⟨h.1.trans h'.1, fun i => (h'.2.1 i).trans (h.2.1 i),
    fun s => (h'.2.2 s).trans (h.2.2 s)⟩
  held _ _ _ _ h := ⟨h.1.held, h.2⟩
  rely _ _ _ h := h.1

theorem keepsCatalogue_edit : KeepsCatalogue EditRely := fun _ _ _ h => h.2

section Runs

variable {R : List Write → Db → Db → Prop} {G : ShopTx → Stmt → Db → Prop}
variable {op : Op} {o : Uuid} {result : Outcome} {tx : ShopTx} {db : Db}

/-- No editor adds to the catalogue or takes from it, fresh or not. -/
theorem Committed.keepsCatalogue (h : Committed R G op result tx db)
    (hop : op.editsOrder o = true) :
    (∀ i, ((postgres.applyAll db tx.writes).items.find? i).isSome = (db.items.find? i).isSome) ∧
      ∀ s, ((postgres.applyAll db tx.writes).services.find? s).isSome
        = (db.services.find? s).isSome := by
  cases op with
  | addItemToOS osId itemId quantity =>
      rcases h with ⟨o', k, ids, lines, r₀, r₁, ws, -, hadd⟩
      exact ⟨hadd.shift.isSome, fun s => congrArg Option.isSome (hadd.edited.services_same s)⟩
  | removeItemFromOS osId itemId =>
      rcases h with ⟨o', line, ids, lines, r₀, r₁, ws, -, hrem⟩
      exact ⟨hrem.catalogue, fun s => congrArg Option.isSome (hrem.edited.services_same s)⟩
  | addServiceToOS osId serviceId =>
      rcases h with ⟨o', ids, lines, r₀, r₁, -, hadd⟩
      exact ⟨fun i => congrArg Option.isSome (hadd.edited.items_same i),
        fun s => congrArg Option.isSome (hadd.edited.services_same s)⟩
  | removeServiceFromOS osId serviceId =>
      rcases h with ⟨o', ids, lines, r₀, r₁, -, hrem⟩
      exact ⟨fun i => congrArg Option.isSome (hrem.edited.items_same i),
        fun s => congrArg Option.isSome (hrem.edited.services_same s)⟩
  | _ => cases hop

/-- The editors meet the rely–guarantee rule with the stronger rely. -/
theorem edit_relyGuarantee (o : Uuid) :
    RelyGuarantee postgres program (editGuard o) EditRely
      (fun op a tx db => op.editsOrder o = true ∧
        Committed EditRely (fun tx q v => (editGuard o).stmt op tx q v = true) op a tx db) where
  conflicts_comm := Write.conflicts_comm
  refl := shopInterference_edit.refl
  trans := shopInterference_edit.trans
  launch op hop db :=
    (program_ensures shopInterference_edit op db).post fun _ _ _ h => ⟨hop, h⟩
  commit _ _ _ _ _ hQ hclear :=
    ⟨rely_of_commit hQ.2.advances hclear, hQ.2.keepsCatalogue hQ.1⟩

/-- The commits so far, as a serial run from `start`: it succeeds, it ends with
the lines and counters there are now, and no unit has lost its line. -/
structure SerialSoFar (o : Uuid) (now : ℕ) (start : World) (db : Db) (log : List ShopCommit) :
    Prop where
  serial : ∃ w, start.completeAll now (log.map (·.op)) = some w ∧ LinesAgree o w.db db
  status : ∀ r, db.orders.find? o = some r → r.status = .diagnosis
  catalogue : ∀ i, (db.items.find? i).isSome = (start.db.items.find? i).isSome
  unbacked : ∀ i, (start.db.items.find? i).isSome = true →
    db.unbacked o i = start.db.unbacked o i

theorem SerialSoFar.start {now : ℕ} {w : World} {row : OrderRow}
    (hrow : w.db.orders.find? o = some row) (hstatus : row.status = .diagnosis) :
    SerialSoFar o now w w.db [] where
  serial := ⟨w, rfl, LinesAgree.refl w.db⟩
  status := by
    intro r hr
    rw [hrow, Option.some.injEq] at hr
    rw [← hr]
    exact hstatus
  catalogue _ := rfl
  unbacked _ _ := rfl

/-- One more fresh edit, made by the serial run too. -/
theorem SerialSoFar.commit {now : ℕ} {w : World} {log : List ShopCommit} {i : ℕ}
    (h : SerialSoFar o now w db log) (hcommitted : Committed EditRely G op result tx db)
    (hop : op.editsOrder o = true) (hfresh : FreshEdit o ⟨i, op, result, tx, db⟩) :
    SerialSoFar o now w (postgres.applyAll db tx.writes) (log ++ [⟨i, op, result, tx, db⟩]) := by
  rcases hcommitted.edit keepsCatalogue_edit hop h.status hfresh with ⟨r₀, r₁, hedit, hdone⟩
  rcases h.serial with ⟨w₁, hrun, hagree⟩
  have hback : LinesAgree o db w₁.db :=
    ⟨hagree.order.symm, fun i => (hagree.items i).symm, fun s => (hagree.services s).symm⟩
  rcases (hedit.transfer hback).alone hop now with ⟨result', w₂, hattempt, hdone'⟩
  constructor
  · refine ⟨w₂, ?_, hagree.edited hdone' hdone⟩
    rw [List.map_append]
    exact World.completeAll_snoc hrun hattempt
  · intro r hr
    rw [hdone.order, Option.some.injEq] at hr
    rw [← hr, hedit.revision.status, Op.changes_status]
    exact hedit.status
  · intro j
    rw [hdone.items, Option.isSome_map]
    exact h.catalogue j
  · intro j hj
    rw [hedit.unbacked hop hdone ((h.catalogue j).trans hj)]
    exact h.unbacked j hj

/-- The operations of the sessions that committed, whatever they returned. -/
def completed (s : ShopSys) : List Op := (s.sessions.filterMap Session.completed?).map (·.1)

/-- The calls that reported success, run one after the other in some order, all
succeed, and end with the services, items and counters there are. -/
def Serialised (o : Uuid) (now : ℕ) (start : World) (s : ShopSys) : Prop :=
  ∃ ops w, ops.Perm (completed s) ∧ start.completeAll now ops = some w ∧
    (w.db.orders.find? o).map (fun r => (r.services, r.items))
      = (s.db.orders.find? o).map (fun r => (r.services, r.items)) ∧
    ∀ i, (w.db.items.find? i).map (·.reservedQuantity)
      = (s.db.items.find? i).map (·.reservedQuantity)

/-- In every run of the editors of an order in `DIAGNOSIS`, from any tables and
interleaved in any way: if every commit replaces the lines it read, then the
calls that reported success amount to a serial run of them, and no unit is left
reserved without a line. -/
theorem fresh_edits_serialise {w : World} {row : OrderRow} {s : ShopSys} (now : ℕ)
    (h : ShopReachable (editGuard o) (.start w.db w.nextId) s)
    (hrow : w.db.orders.find? o = some row) (hstatus : row.status = .diagnosis)
    (hfresh : ∀ c ∈ s.log, FreshEdit o c) :
    Serialised o now w s ∧
      ∀ i, (w.db.items.find? i).isSome = true → s.db.unbacked o i = w.db.unbacked o i := by
  have hinv : (∀ c ∈ s.log, FreshEdit o c) → SerialSoFar o now w s.db s.log := by
    -- the invariant is conditional on the freshness of the commits so far
    refine h.log_induction (P := fun db log => (∀ c ∈ log, FreshEdit o c) →
      SerialSoFar o now w db log) (edit_relyGuarantee o) rfl ?_ ?_
    · intro _
      exact .start hrow hstatus
    · intro db log i op a tx ih _ hQ hall
      have hsofar := ih fun c hc => hall c (List.mem_append_left _ hc)
      exact hsofar.commit hQ.2 hQ.1 (hall _ (List.mem_append_right _ (List.mem_singleton_self _)))
  have hsofar := hinv hfresh
  refine ⟨?_, hsofar.unbacked⟩
  rcases hsofar.serial with ⟨w', hrun, hagree⟩
  refine ⟨s.log.map (·.op), w', ?_, hrun, ?_, ?_⟩
  · have hperm := (h.completed_perm rfl rfl).map (·.1)
    rw [List.map_map] at hperm
    exact hperm
  · rw [hagree.order]
  · intro i
    rw [hagree.items]

/-- Run one after the other, editors leave no unit reserved without a line. -/
theorem World.completeAll_unbacked {now : ℕ} {ops : List Op} {w w' : World} {row : OrderRow}
    (hops : ∀ op ∈ ops, op.editsOrder o = true) (hrow : w.db.orders.find? o = some row)
    (hstatus : row.status = .diagnosis) (h : w.completeAll now ops = some w') {i : Uuid}
    (hi : (w.db.items.find? i).isSome = true) : w'.db.unbacked o i = w.db.unbacked o i := by
  induction ops generalizing w row with
  | nil =>
      cases h
      rfl
  | cons op ops ih =>
      have hop := hops op List.mem_cons_self
      unfold World.completeAll at h
      cases hattempt : w.attempt now (program op) with
      | error failure =>
          rw [hattempt] at h
          cases h
      | ok p =>
          rw [hattempt] at h
          rcases p with ⟨result, w₁⟩
          rcases World.attempt_committed hattempt with ⟨tx, nextId, hcommitted, rfl⟩
          have hall : ∀ r, w.db.orders.find? o = some r → r.status = .diagnosis := by
            intro r hr
            rw [hrow, Option.some.injEq] at hr
            rw [← hr]
            exact hstatus
          rcases hcommitted.edit keepsCatalogue_alone hop hall (hcommitted.fresh hop 0)
            with ⟨r₀, r₁, hedit, hdone⟩
          have hstatus₁ : r₁.status = .diagnosis := by
            rw [hedit.revision.status, Op.changes_status]
            exact hedit.status
          have hi₁ := hi
          rw [← Option.isSome_map (f := fun r : ItemRow => r.shift (op.units r₀.items i) 0),
            ← hdone.items i] at hi₁
          rw [ih (fun op' h' => hops op' (List.mem_cons_of_mem _ h')) hdone.order hstatus₁ h hi₁]
          exact hedit.unbacked hop hdone hi

end Runs

/-- One more unit of item 2 for order 4. -/
def addOne : Op := .addItemToOS (Uuid.text 4) (Uuid.text 2) 1

/-- Such a call, in thirteen moves: after its first three, which read the lines,
another operation starts and makes `n` moves, and `m` more when the call is done. -/
def addOneAround (op : Op) (n m : ℕ) : List (Label Op) :=
  Label.session 0 addOne 3 ++ Label.session 1 op n ++ List.replicate 10 (.advance 0) ++
    List.replicate m (.advance 1)

/-- Two such calls read two units on the line and both store three: both
succeed, two units are reserved and one of them has no line. -/
theorem overlapping_edits_lose_line : ∃ s,
    (ShopSys.start sharedItem.db sharedItem.nextId).play postgres program (editGuard 4)
      (addOneAround addOne 3 10) = some s ∧
    (∀ t ∈ s.sessions, t.completed?.isSome = true) ∧ ∀ now, ¬ Serialised 4 now sharedItem s := by
  have hplay : ((ShopSys.start sharedItem.db sharedItem.nextId).play postgres program (editGuard 4)
      (addOneAround addOne 3 10)).map (fun s => (s.sessions.all (·.completed?.isSome),
        (completed s).all (·.editsOrder 4), s.db.unbacked 4 2)) = some (true, true, 4) := by
    decide +kernel
  have hstart : (sharedItem.db.orders.find? 4).map (·.status) = some .diagnosis ∧
      (sharedItem.db.items.find? 2).isSome = true ∧ sharedItem.db.unbacked 4 2 = 3 := by
    decide +kernel
  rcases Option.map_eq_some_iff.mp hplay with ⟨s, hs, hfacts⟩
  simp only [Prod.mk.injEq] at hfacts
  rcases hfacts with ⟨hall, hedits, hunbacked⟩
  rcases hstart with ⟨hrow, hitem, hbacked⟩
  rcases Option.map_eq_some_iff.mp hrow with ⟨row, hrow, hstatus⟩
  refine ⟨s, hs, List.all_eq_true.mp hall, ?_⟩
  rintro now ⟨ops, w, hperm, hrun, hlines, hcounters⟩
  have hops : ∀ op ∈ ops, op.editsOrder 4 = true := by
    intro op hop
    exact List.all_eq_true.mp hedits op (hperm.mem_iff.mp hop)
  have hserial := World.completeAll_unbacked hops hrow hstatus hrun hitem
  -- the same lines and counters have the same units without a line
  have hsame : s.db.unbacked 4 2 = w.db.unbacked 4 2 := by
    have hunits := congrArg (fun x : Option (List Uuid × List ItemLine) =>
      (x.map fun p => lineUnits p.2 2).getD 0) hlines
    simp only [Option.map_map, Function.comp_def] at hunits
    unfold Db.unbacked
    rw [hcounters 2]
    omega
  rw [hsame, hserial, hbacked] at hunbacked
  omega

/-- A service removed meanwhile: the call replaces the item lines it read. -/
theorem overlapping_edits_serialise : ∃ s,
    (ShopSys.start sharedItem.db sharedItem.nextId).play postgres program (editGuard 4)
      (addOneAround (.removeServiceFromOS (Uuid.text 4) (Uuid.text 3)) 11 0) = some s ∧
    (s.db.orders.find? 4).map (fun r => (r.services, r.items)) = some ([], [⟨2, 3⟩]) ∧
    Serialised 4 0 sharedItem s ∧
      ∀ i, (sharedItem.db.items.find? i).isSome = true →
        s.db.unbacked 4 i = sharedItem.db.unbacked 4 i := by
  have hplay : ((ShopSys.start sharedItem.db sharedItem.nextId).play postgres program (editGuard 4)
      (addOneAround (.removeServiceFromOS (Uuid.text 4) (Uuid.text 3)) 11 0)).map (fun s =>
        ((s.db.orders.find? 4).map (fun r => (r.services, r.items)),
          s.log.all fun c => decide (c.op.editsItems = true →
            (c.before.orders.find? 4).map (·.items) = itemLinesRead 4 c.tx.trace),
          s.log.all fun c => decide (c.op.editsServices = true →
            (c.before.orders.find? 4).map (·.services) = serviceLinesRead 4 c.tx.trace),
          s.log.all fun c => match c.op with | .removeItemFromOS .. => false | _ => true))
      = some (some ([], [⟨2, 3⟩]), true, true, true) := by
    decide +kernel
  have hstart : (sharedItem.db.orders.find? 4).map (·.status) = some .diagnosis := by
    decide +kernel
  rcases Option.map_eq_some_iff.mp hplay with ⟨s, hs, hfacts⟩
  simp only [Prod.mk.injEq, List.all_eq_true, decide_eq_true_eq] at hfacts
  rcases hfacts with ⟨hlines, hitems, hservices, hremoval⟩
  rcases Option.map_eq_some_iff.mp hstart with ⟨row, hrow, hstatus⟩
  refine ⟨s, hs, hlines, fresh_edits_serialise 0 (reachable_of_play .init hs) hrow hstatus ?_⟩
  intro c hc
  constructor
  · intro hedits r hr
    rw [← hitems c hc hedits, hr]
    rfl
  · intro hedits r hr
    rw [← hservices c hc hedits, hr]
    rfl
  · rintro ⟨osId, itemId, heq, -⟩
    have hno := hremoval c hc
    rw [heq] at hno
    cases hno

end CarRepairShop
