import CarRepairShop.Serial

/-! # The stock ledger

The counters of an item tell a story about all orders at once: what is
reserved is the sum of the lines of the orders that still hold their parts,
and what has left the stock is the sum of the lines of the orders that were
paid. Every operation, run alone, keeps both sums: `LedgerStep` says what one
commit does to them, whatever the operation, and the invariant follows.
-/

namespace CarRepairShop

open Lib Txn

/-! ## Units of lines -/

theorem lineUnits_cons (l : ItemLine) (ls : List ItemLine) (j : Uuid) :
    lineUnits (l :: ls) j = unitsAt l.itemId l.quantity j + lineUnits ls j := by
  unfold lineUnits unitsAt
  rw [List.map_cons, List.sum_cons]
  congr 1
  by_cases h : l.itemId = j
  · rw [if_pos h, if_pos h.symm]
  · rw [if_neg h, if_neg fun hj => h hj.symm]

theorem lineUnits_absent {ls : List ItemLine} {j : Uuid} (h : ∀ l ∈ ls, l.itemId ≠ j) :
    lineUnits ls j = 0 := by
  induction ls with
  | nil => rfl
  | cons l ls ih =>
      have hl : j ≠ l.itemId := (h l List.mem_cons_self).symm
      have hls := ih fun l' hl' => h l' (List.mem_cons_of_mem _ hl')
      rw [lineUnits_cons, hls, unitsAt, if_neg hl, add_zero]

/-- Taking the line of an item out takes its units out. -/
theorem lineUnits_removed {ls : List ItemLine} {line : ItemLine} (hmem : line ∈ ls)
    (hnodup : (ls.map (·.itemId)).Nodup) (j : Uuid) :
    lineUnits (ls.filter fun l => l.itemId ≠ line.itemId) j
      = lineUnits ls j - unitsAt line.itemId line.quantity j := by
  induction ls with
  | nil => cases hmem
  | cons l ls ih =>
      rw [List.map_cons, List.nodup_cons] at hnodup
      rcases List.mem_cons.mp hmem with rfl | hmem
      · -- the others are lines of other items
        have hrest : ls.filter (fun l => l.itemId ≠ line.itemId) = ls := by
          rw [List.filter_eq_self]
          intro l hl
          have hne : l.itemId ≠ line.itemId := by
            intro heq
            apply hnodup.1
            rw [← heq]
            exact List.mem_map_of_mem hl
          simpa using hne
        rw [List.filter_cons_of_neg (by simp), hrest, lineUnits_cons]
        omega
      · have hne : l.itemId ≠ line.itemId := by
          intro heq
          apply hnodup.1
          rw [heq]
          exact List.mem_map_of_mem hmem
        rw [List.filter_cons_of_pos (by simpa using hne), lineUnits_cons, lineUnits_cons,
          ih hmem hnodup.2]
        omega

/-- The lines of an order, with the units added to one of them. -/
def mergedLines (lines : List ItemLine) (i : Uuid) (quantity : ℤ) : List ItemLine :=
  lines.map fun l => if l.itemId = i then ⟨i, l.quantity + quantity⟩ else l

theorem addedLines_merged {lines : List ItemLine} {itemId : IdText} {quantity : ℤ}
    {line : ItemLine} (hline : line ∈ lines)
    (hspelled : itemId = line.itemId.text) :
    addedLines (entityItems lines) itemId quantity
      = entityItems (mergedLines lines line.itemId quantity) := by
  have hfound : ((entityItems lines).find? (fun l => l.itemId = itemId)).isSome = true := by
    rw [List.find?_isSome]
    exact ⟨_, List.mem_map_of_mem hline, by simp [hspelled]⟩
  rcases Option.isSome_iff_exists.mp hfound with ⟨existing, hexisting⟩
  unfold addedLines
  rw [hexisting]
  unfold entityItems mergedLines
  rw [List.map_map, List.map_map, hspelled]
  apply List.map_congr_left
  intro l _
  by_cases hl : l.itemId = line.itemId <;> simp [hl]

theorem addedLines_appended {lines : List ItemLine} {itemId : IdText} {quantity : ℤ}
    (hnone : ∀ line ∈ lines, itemId ≠ line.itemId.text) :
    addedLines (entityItems lines) itemId quantity = entityItems lines ++ [⟨itemId, quantity⟩] := by
  have habsent : (entityItems lines).find? (fun l => l.itemId = itemId) = none := by
    rw [List.find?_eq_none]
    intro l hl
    rcases List.mem_map.mp hl with ⟨line, hline, rfl⟩
    have hne := hnone line hline
    simpa [eq_comm] using hne
  unfold addedLines
  rw [habsent]

/-- Adding to the line of an item adds its units. -/
theorem lineUnits_merged {ls : List ItemLine} {k : Uuid} (hmem : k ∈ ls.map (·.itemId))
    (hnodup : (ls.map (·.itemId)).Nodup) (q : ℤ) (j : Uuid) :
    lineUnits (mergedLines ls k q) j = lineUnits ls j + unitsAt k q j := by
  unfold mergedLines
  induction ls with
  | nil => cases hmem
  | cons l ls ih =>
      rw [List.map_cons, List.nodup_cons] at hnodup
      rw [List.map_cons, List.mem_cons] at hmem
      rw [List.map_cons, lineUnits_cons, lineUnits_cons]
      by_cases hl : l.itemId = k
      · have hrest : (ls.map fun l => if l.itemId = k then (⟨k, l.quantity + q⟩ : ItemLine) else l) = ls := by
          refine (List.map_congr_left fun l' hl' => ?_).trans (List.map_id ls)
          apply if_neg
          intro heq
          apply hnodup.1
          rw [hl, ← heq]
          exact List.mem_map_of_mem hl'
        rw [if_pos hl, hrest, hl]
        simp only [unitsAt]
        split <;> omega
      · have hrest : k ∈ ls.map (·.itemId) := by
          rcases hmem with hmem | hmem
          · exact absurd hmem.symm hl
          · exact hmem
        rw [if_neg hl, ih hrest hnodup.2]
        omega

/-- The lines after an addition have the units added. -/
theorem unitsOf_addedLines {ls : List ItemLine} (hnodup : (ls.map (·.itemId)).Nodup)
    {itemId : IdText} {i : Uuid} (hi : itemId.column? = some i) (q : ℤ) (j : Uuid) :
    unitsOf (addedLines (entityItems ls) itemId q) j = lineUnits ls j + unitsAt i q j := by
  by_cases hspelled : ∃ line ∈ ls, itemId = line.itemId.text
  · rcases hspelled with ⟨line, hline, hitem⟩
    have hki : line.itemId = i := by
      rw [hitem] at hi
      exact Option.some.inj hi
    have hmem : i ∈ ls.map (·.itemId) := by
      rw [← hki]
      exact List.mem_map_of_mem hline
    rw [addedLines_merged hline hitem, hki, entityItems, unitsOf_text, lineUnits_merged hmem hnodup]
  · have hnone : ∀ line ∈ ls, itemId ≠ line.itemId.text := by simpa using hspelled
    rw [addedLines_appended hnone, unitsOf_append, entityItems, unitsOf_text, unitsOf_singleton hi]

/-- The lines after a removal have the units of the line taken out. -/
theorem unitsOf_removed {ls : List ItemLine} (hnodup : (ls.map (·.itemId)).Nodup)
    {line : ItemLine} (hmem : line ∈ ls) (j : Uuid) :
    unitsOf ((entityItems ls).filter fun l => l.itemId ≠ line.itemId.text) j
      = lineUnits ls j - unitsAt line.itemId line.quantity j := by
  have hlines : (entityItems ls).filter (fun l => l.itemId ≠ line.itemId.text)
      = entityItems (ls.filter fun l => l.itemId ≠ line.itemId) := by
    unfold entityItems
    rw [List.filter_map]
    congr 1
    apply List.filter_congr
    intro l _
    simp
  rw [hlines, entityItems, unitsOf_text, lineUnits_removed hmem hnodup]

/-! ## The two sums -/

/-- The units of item `i` an order holds reserved. -/
def heldBy (i : Uuid) (r : OrderRow) : ℤ := if r.status.active then lineUnits r.items i else 0

/-- The units of item `i` an order took from the stock when it was paid. -/
def consumedBy (i : Uuid) (r : OrderRow) : ℤ :=
  if .paid ∈ pathOf r.history then lineUnits r.items i else 0

/-- The units of item `i` held by the orders in `RECEIVED`, `DIAGNOSIS`,
`WAITING_APPROVAL` and `APPROVED`. -/
def Db.held (db : Db) (i : Uuid) : ℤ := db.orders.sum (heldBy i)

/-- The units of item `i` of the orders that reached `PAID`. -/
def Db.consumed (db : Db) (i : Uuid) : ℤ := db.orders.sum (consumedBy i)

/-- The stock of item `i`; none when it is not in the catalogue. -/
def Db.stockOf (db : Db) (i : Uuid) : ℤ := ((db.items.find? i).map (·.stockQuantity)).getD 0

/-- What a commit does to the ledger, whatever the operation: nothing; or it
writes one order and moves the counters with it; or it sets one item of the
catalogue and leaves the orders. -/
inductive LedgerStep (op : Op) (tx : ShopTx) (db : Db) : Prop where
  | untouched (orders : ∀ o, lastOrder tx.writes o = none) (items : ∀ i, lastItem tx.writes i = none)
  | order (isOrder : op.setsItems = false) (o : Uuid) (after : OrderRow)
      (written : lastOrder tx.writes o = some after)
      (others : ∀ o', o' ≠ o → lastOrder tx.writes o' = none)
      (shift : Shift tx.writes db
        (fun i => heldBy i after - ((db.orders.find? o).map (heldBy i)).getD 0)
        (fun i => ((db.orders.find? o).map (consumedBy i)).getD 0 - consumedBy i after))
      (there : ∀ l ∈ after.items, (db.items.find? l.itemId).isSome = true)
  | catalogue (sets : op.setsItems = true) (i : Uuid) (x : Option ItemRow)
      (orders : ∀ o, lastOrder tx.writes o = none) (only : OnlyItem i x tx.writes)
      (kept : ∀ row, x = some row →
        row.reservedQuantity = ((db.items.find? i).map (·.reservedQuantity)).getD 0)
      (unused : x = none → ∀ row ∈ db.orders.rows, ∀ l ∈ row.items, l.itemId ≠ i)

/-- The items on the lines of the orders are in the catalogue. -/
def ItemsThere (db : Db) : Prop :=
  ∀ o row, db.orders.find? o = some row → ∀ l ∈ row.items, (db.items.find? l.itemId).isSome = true

/-! ## Each operation -/

section Operations

variable {op : Op} {result : Outcome} {tx : ShopTx} {db : Db}

theorem itemThere_alone {i : Uuid} : ItemThere Alone db i ↔ (db.items.find? i).isSome = true :=
  was_alone (P := fun d : Db => (d.items.find? i).isSome = true)

/-- An order that was not paid before took nothing. -/
theorem OrderRow.Accounted.consumedBy_early {r : OrderRow} (h : r.Accounted)
    (hs : r.status = .diagnosis ∨ r.status = .received) (i : Uuid) : consumedBy i r = 0 := by
  have hall : ∀ path ∈ lives, path.getLast? = some .diagnosis ∨ path.getLast? = some .received →
      OSStatus.paid ∉ path := by
    decide
  have hnot : OSStatus.paid ∉ pathOf r.history := by
    apply hall _ h.path
    rw [h.chain.getLast, Option.some.injEq, Option.some.injEq]
    exact hs
  rw [consumedBy, if_neg hnot]

/-- A change of status moves what an order holds as `reservedOn` says. -/
theorem heldBy_moved {r₀ r₁ : OrderRow} (hitems : r₁.items = r₀.items) {b : Option OSStatus}
    (hstatus : r₁.status = b.getD r₀.status)
    (hlegal : ∀ c, b = some c → canTransition r₀.status c = true) (i : Uuid) :
    reservedTo b * lineUnits r₀.items i = heldBy i r₁ - heldBy i r₀ := by
  cases b with
  | none =>
      have heq : r₁.status = r₀.status := hstatus
      unfold heldBy
      rw [heq, hitems, sub_self]
      exact zero_mul _
  | some c =>
      have heq : r₁.status = c := hstatus
      have hactive := reservedOn_active (hlegal c rfl)
      have hheld : ∀ r : OrderRow, heldBy i r
          = (if r.status.active then (1 : ℤ) else 0) * lineUnits r.items i := by
        intro r
        unfold heldBy
        split <;> simp
      rw [hheld, hheld, heq, hactive, hitems, add_mul, add_sub_cancel_left]
      rfl

/-- A change of status takes from the stock what `stockedOn` says. -/
theorem consumedBy_moved {r₀ r₁ : OrderRow} (hacc : r₀.Accounted) (hitems : r₁.items = r₀.items)
    {b : Option OSStatus} {t : ℕ} (hhistory : r₁.history = r₀.history ++ statusChange r₀.status b t)
    (hlegal : ∀ c, b = some c → canTransition r₀.status c = true) (i : Uuid) :
    stockedTo b * lineUnits r₀.items i = consumedBy i r₀ - consumedBy i r₁ := by
  cases b with
  | none =>
      have heq : r₁.history = r₀.history := by
        rw [hhistory, statusChange, List.append_nil]
      unfold consumedBy
      rw [heq, hitems, sub_self]
      exact zero_mul _
  | some c =>
      have hcan := hlegal c rfl
      have hpath : pathOf r₁.history = pathOf r₀.history ++ [c] := by
        rw [hhistory]
        simp [pathOf, statusChange, canTransition_ne hcan]
      have hall : ∀ path ∈ lives, ∀ a ∈ path.getLast?, ∀ c ∈ validTransitions a,
          stockedOn c = (if OSStatus.paid ∈ path then (1 : ℤ) else 0)
            - (if OSStatus.paid ∈ path ++ [c] then 1 else 0) := by
        decide
      have hpaid := hall _ hacc.path _ hacc.chain.getLast c (by simpa [canTransition] using hcan)
      have hconsumed : ∀ r : OrderRow, consumedBy i r
          = (if OSStatus.paid ∈ pathOf r.history then (1 : ℤ) else 0) * lineUnits r.items i := by
        intro r
        unfold consumedBy
        split <;> simp
      rw [hconsumed, hconsumed, hpath, hitems, ← sub_mul, ← hpaid]
      rfl

/-- Everything but the line editors and the catalogue. -/
theorem OrderStep.ledger (h : OrderStep Alone AnyStep op tx db) (hedits : op.edits = false)
    (hsets : op.setsItems = false)
    (haccounted : ∀ o row, db.orders.find? o = some row → row.Accounted)
    (hthere : ItemsThere db) : LedgerStep op tx db := by
  cases h with
  | quiet horders _ _ hitems =>
      rcases hitems with hitems | hitems
      · rw [hsets] at hitems
        cases hitems
      · exact .untouched horders hitems
  | opened input o row message hopen =>
      refine .order hsets o row hopen.order hopen.others ?_ ?_
      · refine hopen.shift.congr (fun i => ?_) (fun i => ?_)
        · rw [hopen.isNew, heldBy, hopen.status]
          simp [OSStatus.active]
        · rw [hopen.isNew, hopen.accounted.consumedBy_early (Or.inr hopen.status)]
          rfl
      · intro l hl
        exact itemThere_alone.mp (hopen.itemsThere l hl)
  | updated o data expected r₀ r₁ hcommit hlegal _ _ hlines =>
      rcases hlines with ⟨-, hnone, hshift⟩ | ⟨hbad, -, -⟩
      · have hitems := hcommit.revision.items hnone
        rcases hcommit.revision.history with ⟨t, hhistory⟩
        refine .order hsets o r₁ hcommit.order hcommit.others ?_ ?_
        · rw [hcommit.found]
          refine hshift.congr (fun i => ?_) (fun i => ?_)
          · exact heldBy_moved hitems hcommit.revision.status hlegal i
          · exact consumedBy_moved (haccounted o r₀ hcommit.found) hitems hhistory hlegal i
        · intro l hl
          rw [hitems] at hl
          exact hthere o r₀ hcommit.found l hl
      · rw [hedits] at hbad
        cases hbad

/-- A line editor that moves the counters by the units it adds to the lines. -/
theorem Edited.ledger {o : Uuid} {ids : List Uuid} {lines : List ItemLine}
    {data : ServiceOrderChanges} {r₀ r₁ : OrderRow} {itemWrites : List Write}
    (h : Edited Alone AnyStep o ids lines data r₀ r₁ itemWrites tx db)
    (hsets : op.setsItems = false) (hstatus : data.status = none)
    (haccounted : ∀ o row, db.orders.find? o = some row → row.Accounted)
    {d : Uuid → ℤ} (hshift : Shift tx.writes db d (fun _ => 0))
    (hunits : ∀ i, lineUnits r₁.items i = lineUnits r₀.items i + d i)
    (hthere : ∀ l ∈ r₁.items, (db.items.find? l.itemId).isSome = true) : LedgerStep op tx db := by
  have hdiagnosis : r₀.status = .diagnosis := by
    rcases was_alone.mp h.readStatus with ⟨r, hr, hs⟩
    rw [h.commit.found, Option.some.injEq] at hr
    rw [hr]
    exact hs
  have hstatus₁ : r₁.status = r₀.status := by
    rw [h.commit.revision.status, hstatus]
    rfl
  have hhistory : r₁.history = r₀.history := by
    rcases h.commit.revision.history with ⟨t, ht⟩
    rw [ht, hstatus, statusChange, List.append_nil]
  have hacc := haccounted o r₀ h.commit.found
  refine .order hsets o r₁ h.commit.order h.commit.others ?_ hthere
  rw [h.commit.found]
  refine hshift.congr (fun i => ?_) (fun i => ?_)
  · show d i = heldBy i r₁ - heldBy i r₀
    have hactive : OSStatus.diagnosis.active = true := rfl
    rw [heldBy, heldBy, hstatus₁, hdiagnosis, if_pos hactive, if_pos hactive, hunits i]
    omega
  · show 0 = consumedBy i r₀ - consumedBy i r₁
    have h₀ := hacc.consumedBy_early (Or.inl hdiagnosis) i
    have h₁ : consumedBy i r₁ = 0 := by
      unfold consumedBy at h₀ ⊢
      rw [hhistory]
      split
      · next hpaid =>
        -- the order was not paid before, and its history is the same
        exfalso
        have hall : ∀ path ∈ lives, path.getLast? = some .diagnosis → OSStatus.paid ∉ path := by
          decide
        refine hall _ hacc.path ?_ hpaid
        rw [hacc.chain.getLast, hdiagnosis]
      · rfl
    rw [h₀, h₁, sub_self]

/-- What an editor read is what it replaces, when it runs alone. -/
theorem Edited.read_lines {o : Uuid} {ids : List Uuid} {lines : List ItemLine}
    {data : ServiceOrderChanges} {r₀ r₁ : OrderRow} {itemWrites : List Write}
    (h : Edited Alone AnyStep o ids lines data r₀ r₁ itemWrites tx db) : r₀.items = lines := by
  rcases was_alone.mp h.readItems with ⟨r, hr, hlines⟩
  rw [h.commit.found, Option.some.injEq] at hr
  rw [hr]
  exact hlines

/-- The lines of a stored order have one line per item. -/
theorem one_line_per_item {o : Uuid} {r : OrderRow} (h : db.orders.find? o = some r) :
    (r.items.map (·.itemId)).Nodup :=
  (Table.check_of_find? (α := OrderRow) h).oneLinePerItem

theorem ItemAdded.ledger {o i : Uuid} {itemId : IdText} {quantity : ℤ} {ids : List Uuid}
    {lines : List ItemLine} {r₀ r₁ : OrderRow} {itemWrites : List Write}
    (h : ItemAdded Alone AnyStep o itemId quantity i ids lines r₀ r₁ itemWrites tx db)
    (hsets : op.setsItems = false)
    (haccounted : ∀ o row, db.orders.find? o = some row → row.Accounted) : LedgerStep op tx db := by
  have hlines := h.edited.read_lines
  refine h.edited.ledger hsets rfl haccounted h.shift ?_ ?_
  · intro j
    rw [lineUnits_of_columns (h.edited.commit.revision.newItems _ rfl) j, ← hlines]
    exact unitsOf_addedLines (one_line_per_item h.edited.commit.found) h.item quantity j
  · intro l hl
    exact itemThere_alone.mp (h.edited.itemsThere rfl l hl)

/-- A counter set to what was read less the line is, alone, a relative move. -/
theorem CounterSet.shift {i : Uuid} {quantity : ℤ} {readRow row : ItemRow}
    (h : CounterSet Alone AnyStep i quantity readRow row tx db) :
    Shift tx.writes db (unitsAt i (-quantity)) (fun _ => 0) := by
  have hsame : readRow = row := by
    have hread := was_alone.mp h.readBefore
    rw [h.found] at hread
    exact (Option.some.inj hread).symm
  intro j
  by_cases hj : j = i
  · subst hj
    refine Or.inr ⟨row, h.found, ?_⟩
    rw [h.only.item, hsame]
    simp [unitsAt, ItemRow.shift, sub_eq_add_neg]
  · refine Or.inl ⟨h.only.others j hj, ?_, rfl⟩
    rw [unitsAt, if_neg hj]

theorem ItemRemoved.ledger {o : Uuid} {itemId : IdText} {line : ItemLine} {ids : List Uuid}
    {lines : List ItemLine} {r₀ r₁ : OrderRow} {itemWrites : List Write}
    (h : ItemRemoved Alone AnyStep o itemId line ids lines r₀ r₁ itemWrites tx db)
    (hsets : op.setsItems = false)
    (haccounted : ∀ o row, db.orders.find? o = some row → row.Accounted)
    (hthere : ItemsThere db) : LedgerStep op tx db := by
  have hlines := h.edited.read_lines
  have hmem : line ∈ r₀.items := by
    rw [hlines]
    exact h.inOrder
  have hshift : Shift tx.writes db (unitsAt line.itemId (-line.quantity)) (fun _ => 0) := by
    rcases h.counter with ⟨-, hgone⟩ | ⟨readRow, row, hcounter⟩
    · -- an item with a line cannot be gone
      have hsome := hthere o r₀ h.edited.commit.found line hmem
      rw [was_alone.mp hgone] at hsome
      cases hsome
    · exact hcounter.shift
  refine h.edited.ledger hsets rfl haccounted hshift ?_ ?_
  · intro j
    rw [lineUnits_of_columns (h.edited.commit.revision.newItems _ rfl) j, h.item, ← hlines,
      unitsOf_removed (one_line_per_item h.edited.commit.found) hmem]
    unfold unitsAt
    split <;> omega
  · intro l hl
    exact itemThere_alone.mp (h.edited.itemsThere rfl l hl)

/-- An editor of services leaves the items and the lines of items. -/
theorem Edited.services_ledger {o : Uuid} {ids : List Uuid} {lines : List ItemLine}
    {data : ServiceOrderChanges} {r₀ r₁ : OrderRow}
    (h : Edited Alone AnyStep o ids lines data r₀ r₁ [] tx db) (hsets : op.setsItems = false)
    (hstatus : data.status = none) (hitems : data.items = none)
    (haccounted : ∀ o row, db.orders.find? o = some row → row.Accounted)
    (hthere : ItemsThere db) : LedgerStep op tx db := by
  have hsame := h.commit.revision.items hitems
  have hnone : ∀ i, lastItem tx.writes i = none := by
    intro i
    rcases h.writes with ⟨ws, hws, hord⟩
    rw [hws, List.nil_append]
    exact hord.item i
  refine h.ledger hsets hstatus haccounted (Shift.none hnone db) ?_ ?_
  · intro i
    rw [hsame, add_zero]
  · intro l hl
    rw [hsame] at hl
    exact hthere o r₀ h.commit.found l hl

/-- Every operation, run alone, is a step of the ledger. -/
theorem Committed.ledger (h : Committed Alone AnyStep op result tx db)
    (haccounted : ∀ o row, db.orders.find? o = some row → row.Accounted)
    (hthere : ItemsThere db) : LedgerStep op tx db := by
  have hstep := h.step
  cases op with
  | addItemToOS osId itemId quantity =>
      rcases h with ⟨o, i, ids, lines, r₀, r₁, ws, -, hadd⟩
      exact hadd.ledger rfl haccounted
  | removeItemFromOS osId itemId =>
      rcases h with ⟨o, line, ids, lines, r₀, r₁, ws, -, hrem⟩
      exact hrem.ledger rfl haccounted hthere
  | addServiceToOS osId serviceId =>
      rcases h with ⟨o, ids, lines, r₀, r₁, -, hadd⟩
      exact hadd.edited.services_ledger rfl rfl rfl haccounted hthere
  | removeServiceFromOS osId serviceId =>
      rcases h with ⟨o, ids, lines, r₀, r₁, -, hrem⟩
      exact hrem.edited.services_ledger rfl rfl rfl haccounted hthere
  | createItem name price stockQuantity =>
      rcases h with ⟨hquiet, -, i, row, hnew, honly, hzero⟩
      refine .catalogue rfl i (some row) hquiet.orders honly ?_ (by simp)
      intro row' hrow
      cases hrow
      rw [hnew, hzero]
      rfl
  | updateItem id data =>
      rcases h with ⟨hquiet, -, i, row, row', hfound, honly, hsame⟩
      refine .catalogue rfl i (some row') hquiet.orders honly ?_ (by simp)
      intro row'' hrow
      cases hrow
      rw [hfound, hsame]
      rfl
  | deleteItem id =>
      rcases h with ⟨hquiet, -, hdeleted⟩
      rcases hdeleted with hnone | ⟨i, hsome, honly, hunused⟩
      · exact .untouched hquiet.orders hnone
      · exact .catalogue rfl i none hquiet.orders honly (by simp) fun _ => was_alone.mp hunused
  | _ => exact hstep.ledger rfl rfl haccounted hthere

end Operations

/-! ## Every serial run -/

/-- What holds of the tables after any serial run. -/
structure LedgerInvariant (db : Db) : Prop where
  accounted : ∀ o row, db.orders.find? o = some row → row.Accounted
  there : ItemsThere db
  reserved : ∀ i row, db.items.find? i = some row → row.reservedQuantity = db.held i

theorem LedgerInvariant.start : LedgerInvariant {} where
  accounted := by
    intro o row h
    cases h
  there := by
    intro o row h
    cases h
  reserved := by
    intro i row h
    cases h

section Invariant

variable {op : Op} {tx : ShopTx} {db : Db}

/-- Nothing is held, or was consumed, of an item that no line is about. -/
theorem sums_unused {i : Uuid} (h : ∀ row ∈ db.orders.rows, ∀ l ∈ row.items, l.itemId ≠ i) :
    db.held i = 0 ∧ db.consumed i = 0 := by
  constructor
  · apply Table.sum_eq_zero
    intro row hrow
    rw [heldBy, lineUnits_absent (h row hrow), ite_self]
  · apply Table.sum_eq_zero
    intro row hrow
    rw [consumedBy, lineUnits_absent (h row hrow), ite_self]

/-- An item that is not in the catalogue is on no line. -/
theorem ItemsThere.unused (h : ItemsThere db) {i : Uuid} (hi : db.items.find? i = none) :
    ∀ row ∈ db.orders.rows, ∀ l ∈ row.items, l.itemId ≠ i := by
  intro row hrow l hl heq
  have hfind : db.orders.find? row.id = some row := Table.find?_of_mem (α := OrderRow) hrow
  have hsome := h row.id row hfind l hl
  rw [heq, hi] at hsome
  cases hsome

/-- Moving the counters takes no item out of the catalogue. -/
theorem Shift.isSome {dr ds : Uuid → ℤ} (h : Shift tx.writes db dr ds) (i : Uuid) :
    ((postgres.applyAll db tx.writes).items.find? i).isSome = (db.items.find? i).isSome := by
  rw [h.after i, Option.isSome_map]

/-- A catalogue write touches one item. -/
theorem OnlyItem.after {i : Uuid} {x : Option ItemRow} (h : OnlyItem i x tx.writes) (j : Uuid) :
    (postgres.applyAll db tx.writes).items.find? j = if j = i then x else db.items.find? j := by
  rw [applyAll_items]
  by_cases hj : j = i
  · rw [if_pos hj, hj, h.item]
    rfl
  · rw [if_neg hj, h.others j hj]
    rfl

/-- The items on the lines stay in the catalogue. -/
theorem LedgerStep.there (h : LedgerStep op tx db) (hthere : ItemsThere db) :
    ItemsThere (postgres.applyAll db tx.writes) := by
  intro o row hrow l hl
  cases h with
  | untouched horders hitems =>
      rw [applyAll_orders, horders o, Option.none_or] at hrow
      rw [applyAll_items, hitems]
      exact hthere o row hrow l hl
  | order _ o' after hwritten hothers hshift hafter =>
      -- the counters moved, and every item is still there
      rw [hshift.isSome]
      rw [applyAll_orders] at hrow
      by_cases ho : o = o'
      · subst ho
        rw [hwritten, Option.some_or, Option.some.injEq] at hrow
        rw [← hrow] at hl
        exact hafter l hl
      · rw [hothers o ho, Option.none_or] at hrow
        exact hthere o row hrow l hl
  | catalogue _ i x horders honly _ hunused =>
      rw [applyAll_orders, horders o, Option.none_or] at hrow
      rw [honly.after]
      by_cases hli : l.itemId = i
      · rw [if_pos hli]
        cases x with
        | some row' => rfl
        -- an item on a line is not removed
        | none => exact absurd hli (hunused rfl row (Table.mem_of_find? hrow) l hl)
      · rw [if_neg hli]
        exact hthere o row hrow l hl

/-- What is reserved stays the sum over the orders. -/
theorem LedgerStep.reserved (h : LedgerStep op tx db) (hinv : LedgerInvariant db) (i : Uuid)
    (row : ItemRow) (hrow : (postgres.applyAll db tx.writes).items.find? i = some row) :
    row.reservedQuantity = (postgres.applyAll db tx.writes).held i := by
  cases h with
  | untouched horders hitems =>
      rw [applyAll_items, hitems] at hrow
      rw [Db.held, applyAll_orders_same db horders]
      exact hinv.reserved i row hrow
  | order _ o after hwritten hothers hshift _ =>
      rw [hshift.after] at hrow
      rcases Option.map_eq_some_iff.mp hrow with ⟨row₀, hrow₀, rfl⟩
      -- the order gave up what it held and holds what its lines ask for now
      have hsum := applyAll_orders_sum db hwritten hothers (heldBy i)
      have hbefore := hinv.reserved i row₀ hrow₀
      unfold Db.held at hbefore ⊢
      rw [hsum, ItemRow.shift_reservedQuantity, hbefore]
      omega
  | catalogue _ j x horders honly hkept hunused =>
      rw [honly.after] at hrow
      have hheld : (postgres.applyAll db tx.writes).held i = db.held i := by
        rw [Db.held, applyAll_orders_same db horders]
        rfl
      rw [hheld]
      by_cases hij : i = j
      · subst hij
        rw [if_pos rfl] at hrow
        rw [hkept row hrow]
        cases hfind : db.items.find? i with
        | some row₀ => exact hinv.reserved i row₀ hfind
        | none => exact (sums_unused (hinv.there.unused hfind)).1.symm
      · rw [if_neg hij] at hrow
        exact hinv.reserved i row hrow

/-- Stock and consumption together change by catalogue writes only. -/
theorem LedgerStep.stock (h : LedgerStep op tx db) (hsets : op.setsItems = false) (i : Uuid) :
    (postgres.applyAll db tx.writes).stockOf i + (postgres.applyAll db tx.writes).consumed i
      = db.stockOf i + db.consumed i := by
  cases h with
  | untouched horders hitems =>
      rw [Db.stockOf, Db.consumed, applyAll_items, hitems, applyAll_orders_same db horders]
      rfl
  | order _ o after hwritten hothers hshift _ =>
      have hsum := applyAll_orders_sum db hwritten hothers (consumedBy i)
      unfold Db.stockOf Db.consumed
      rw [hsum, hshift.after]
      cases hfind : db.items.find? i with
      | some row =>
          simp only [Option.map_some, Option.getD_some, ItemRow.shift_stockQuantity]
          omega
      | none =>
          -- an item that is gone was not moved
          rcases hshift i with ⟨-, -, hzero⟩ | ⟨row, hrow, -⟩
          · have hzero' : ((db.orders.find? o).map (consumedBy i)).getD 0 - consumedBy i after = 0 :=
              hzero
            simp only [Option.map_none, Option.getD_none]
            omega
          · rw [hfind] at hrow
            cases hrow
  | catalogue hbad _ _ _ _ _ _ =>
      rw [hsets] at hbad
      cases hbad

/-- Catalogue writes leave what was consumed. -/
theorem LedgerStep.consumed (h : LedgerStep op tx db) (hsets : op.setsItems = true) (i : Uuid) :
    (postgres.applyAll db tx.writes).consumed i = db.consumed i := by
  cases h with
  | untouched horders _ =>
      rw [Db.consumed, applyAll_orders_same db horders]
      rfl
  | order hbad _ _ _ _ _ _ =>
      rw [hsets] at hbad
      cases hbad
  | catalogue _ _ _ horders _ _ _ =>
      rw [Db.consumed, applyAll_orders_same db horders]
      rfl

/-- The step. -/
theorem LedgerInvariant.commit {result : Outcome} (h : LedgerInvariant db)
    (hc : Committed Alone AnyStep op result tx db) :
    LedgerInvariant (postgres.applyAll db tx.writes) := by
  have hledger := hc.ledger h.accounted h.there
  constructor
  · exact accounted_commit hc.step h.accounted
  · exact hledger.there h.there
  · exact hledger.reserved h

end Invariant

/-- The units of item `i` that the catalogue operations of a run put in stock:
the initial stock of a new item, and what explicit updates add or take. -/
def supplied (w : World) : List (ℕ × Op) → Uuid → ℤ
  | [], _ => 0
  | op :: ops, i =>
      (if op.2.setsItems then
        (w.perform op.1 op.2).db.stockOf i - w.db.stockOf i else 0) +
        supplied (w.perform op.1 op.2) ops i

/-- The run: what is in stock and what was consumed add up to what was
supplied. -/
theorem stock_balance (ops : List (ℕ × Op)) (i : Uuid) {w : World} (h : LedgerInvariant w.db) :
    (w.performAll ops).db.stockOf i + (w.performAll ops).db.consumed i
      = w.db.stockOf i + w.db.consumed i + supplied w ops i := by
  induction ops generalizing w with
  | nil => exact (add_zero _).symm
  | cons op ops ih =>
      rcases w.perform_cases op.1 op.2 with hsame | ⟨result, tx, nextId, hcom, hdb⟩
      · -- rolled back: nothing moved
        have hih := ih (w := w.perform op.1 op.2) (by rw [hsame]; exact h)
        have hzero : (if op.2.setsItems then
            (w.perform op.1 op.2).db.stockOf i - w.db.stockOf i else 0) = 0 := by
          rw [hsame, sub_self, ite_self]
        rw [World.performAll_cons, supplied, hzero, zero_add, hih, hsame]
      · have hledger := hcom.ledger h.accounted h.there
        have hnext : LedgerInvariant (w.perform op.1 op.2).db := by
          rw [hdb]
          exact h.commit hcom
        have hih := ih hnext
        have hstep : (w.perform op.1 op.2).db.stockOf i + (w.perform op.1 op.2).db.consumed i
            = w.db.stockOf i + w.db.consumed i + (if op.2.setsItems then
              (w.perform op.1 op.2).db.stockOf i - w.db.stockOf i else 0) := by
          cases hsets : op.2.setsItems with
          | false =>
              have hstock := hledger.stock hsets i
              rw [hdb]
              simpa using hstock
          | true =>
              have hconsumed := hledger.consumed hsets i
              rw [if_pos rfl, hdb, hconsumed]
              omega
        rw [World.performAll_cons, supplied, hih, hstep]
        omega

/-- After any sequence of operations run one at a time, from the empty tables:
what each item has reserved is the sum of its lines over the orders that hold
their parts, within its stock; and its stock is what the catalogue operations
supplied, less the lines of the orders that reached `PAID`, each counted once. -/
theorem stock_is_conserved (ops : List (ℕ × Op)) (i : Uuid) :
    (∀ row, (World.performAll {} ops).db.items.find? i = some row →
      row.reservedQuantity = (World.performAll {} ops).db.held i ∧
      0 ≤ row.reservedQuantity ∧ row.reservedQuantity ≤ row.stockQuantity) ∧
    (World.performAll {} ops).db.stockOf i
      = supplied {} ops i - (World.performAll {} ops).db.consumed i := by
  have hinv : LedgerInvariant (World.performAll {} ops).db :=
    World.performAll_induction (fun _ _ _ _ h hc => h.commit hc) ops .start
  constructor
  · intro row hrow
    have hchecks : row.Checks := Table.check_of_find? hrow
    exact ⟨hinv.reserved i row hrow, hchecks.reservedNonNegative, hchecks.reservedWithinStock⟩
  · have hbalance := stock_balance ops i (w := {}) .start
    have hempty : Db.stockOf {} i + Db.consumed {} i = 0 := rfl
    rw [hempty] at hbalance
    omega

end CarRepairShop
