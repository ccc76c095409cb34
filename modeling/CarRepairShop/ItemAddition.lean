import CarRepairShop.DueReplies
import CarRepairShop.LineEdits

/-! # Adding items to an order

`AddItemToOS` alone, on any tables. The reservation is conditional: the item must
have as many units available, which a negative quantity always has. The line is
merged with the one the order has of the item, and the merged line has to be
positive. So units of a line can be taken back by adding a negative quantity, and
a quantity of zero goes through as well. `adding_only_adds_iff` says that nothing
else goes wrong.
-/

namespace CarRepairShop

open Lib Txn Prog

/-- `quantity` units of item `i` were added to order `o`, and nothing else was changed. -/
structure UnitsAdded (o i : Uuid) (quantity : ℤ) (row row' : OrderRow) (item : ItemRow)
    (db db' : Db) : Prop where
  found : db.orders.find? o = some row
  status : row.status = .diagnosis
  positive : 1 ≤ quantity
  itemFound : db.items.find? i = some item
  available : quantity ≤ item.stockQuantity - item.reservedQuantity
  reserved : db'.items.find? i =
    some { item with reservedQuantity := item.reservedQuantity + quantity }
  otherItems : ∀ j, j ≠ i → db'.items.find? j = db.items.find? j
  after : db'.orders.find? o = some row'
  columns : row' = { row with items := row'.items, version := row.version + 1 }
  oneLine : (row'.items.map (·.itemId)).Nodup
  line : lineUnits row'.items i = lineUnits row.items i + quantity
  otherLines : row'.items.filter (·.itemId ≠ i) = row.items.filter (·.itemId ≠ i)
  otherOrders : ∀ o', o' ≠ o → db'.orders.find? o' = db.orders.find? o'

/-- The claim about one call: it adds the units, or it fails and changes nothing. -/
def AddingOnlyAdds (w : World) (now : ℕ) (osId itemId : IdText) (quantity : ℤ) : Prop :=
  match w.attempt now (program (.addItemToOS osId itemId quantity)) with
  | .ok (_, w') => ∃ o i row row' item, osId.column? = some o ∧ itemId.column? = some i ∧
      UnitsAdded o i quantity row row' item w.db w'.db
  | .error _ => w.perform now (.addItemToOS osId itemId quantity) = w

/-- An order in diagnosis has a line under this id that keeps some units when `quantity` is
added to it, and the constraints let the change through. -/
structure LineStays (db : Db) (osId itemId : IdText) (quantity : ℤ) (o : Uuid) (row : OrderRow)
    (line : ItemLine) (item : ItemRow) : Prop where
  order : osId.column? = some o
  found : db.orders.find? o = some row
  status : row.status = .diagnosis
  lineFound : line ∈ row.items
  spelled : itemId = line.itemId.text
  stays : 0 < line.quantity + quantity
  itemFound : db.items.find? line.itemId = some item
  reserved : 0 ≤ item.reservedQuantity + quantity
  keys : ∀ l ∈ row.items, (db.items.find? l.itemId).isSome = true
  room : (row.version : ℤ) < maxInteger

/-! ## The lines after an addition -/

section Lines

variable {lines new : List ItemLine} {itemId : IdText} {i : Uuid} {quantity : ℤ}

/-- The columns of an entity's lines are the lines it was read with. -/
theorem eq_of_columns
    (h : new.map (fun x => (some x.itemId, x.quantity)) =
      (entityItems lines).map (fun x => (x.itemId.stored?, x.quantity))) : new = lines := by
  unfold entityItems at h
  rw [List.map_map] at h
  refine List.map_injective_iff.mpr ?_ h
  rintro ⟨a, b⟩ ⟨a', b'⟩ heq
  simpa using heq

theorem entityItems_columns (lines : List ItemLine) :
    lines.map (fun x => (some x.itemId, x.quantity)) =
      (entityItems lines).map (fun x => (x.itemId.stored?, x.quantity)) := by
  unfold entityItems
  rw [List.map_map]
  rfl

/-- Merging keeps the items of the lines. -/
theorem mergedLines_items (lines : List ItemLine) (i : Uuid) (quantity : ℤ) :
    (mergedLines lines i quantity).map (·.itemId) = lines.map (·.itemId) := by
  unfold mergedLines
  rw [List.map_map]
  apply List.map_congr_left
  intro l _
  by_cases hl : l.itemId = i <;> simp [hl]

theorem mergedLines_others (lines : List ItemLine) (i : Uuid) (quantity : ℤ) :
    (mergedLines lines i quantity).filter (·.itemId ≠ i) = lines.filter (·.itemId ≠ i) := by
  induction lines with
  | nil => rfl
  | cons l ls ih =>
      simp only [mergedLines, List.map_cons] at ih ⊢
      by_cases hl : l.itemId = i
      · rw [if_pos hl, List.filter_cons_of_neg (by simp), List.filter_cons_of_neg (by simp [hl]), ih]
      · rw [if_neg hl, List.filter_cons_of_pos (by simp [hl]), List.filter_cons_of_pos (by simp [hl]),
          ih]

/-- An update of the item lines only. -/
theorem revision_items (row : OrderRow) {data : List OSItem}
    (hcols : new.map (fun x => (some x.itemId, x.quantity)) =
      data.map (fun x => (x.itemId.stored?, x.quantity))) :
    Revision { items := some data } row { row with items := new, version := row.version + 1 } where
  columns := rfl
  services _ := rfl
  newServices := by
    intro l hl
    cases hl
  items := by
    intro hnone
    cases hnone
  newItems := by
    intro l hl
    cases hl
    exact hcols
  history := ⟨0, by simp [statusChange]⟩

end Lines

/-! ## What a call that succeeds did -/

section Added

variable {osId itemId : IdText} {quantity : ℤ} {o : Uuid} {db : Db} {r₀ r₁ : OrderRow}

/-- Alone, a call that succeeds edits the order, and no other. -/
theorem Committed.added {result : Outcome} {tx : ShopTx}
    (h : Committed Alone AnyStep (.addItemToOS osId itemId quantity) result tx db) :
    ∃ o r₀ r₁, osId.column? = some o ∧ Edit (.addItemToOS osId itemId quantity) o db r₀ r₁ ∧
      EditDone (.addItemToOS osId itemId quantity) o r₀ r₁ db (postgres.applyAll db tx.writes) ∧
      ∀ o', o' ≠ o → (postgres.applyAll db tx.writes).orders.find? o' = db.orders.find? o' := by
  have hcopy := h
  rcases hcopy with ⟨o, i, ids, lines, r₀', r₁', ws, ho, hadd⟩
  have hop : (Op.addItemToOS osId itemId quantity).editsOrder o = true := by
    simp [Op.editsOrder, ho]
  have hstatus : ∀ r, db.orders.find? o = some r → r.status = .diagnosis := by
    intro r hr
    rcases was_alone.mp hadd.edited.readStatus with ⟨r', hr', hdiagnosis⟩
    rw [hr, Option.some.injEq] at hr'
    rw [hr']
    exact hdiagnosis
  rcases h.edit keepsCatalogue_alone hop hstatus (h.fresh hop 0) with ⟨r₀, r₁, hedit, hdone⟩
  refine ⟨o, r₀, r₁, ho, hedit, hdone, ?_⟩
  intro o' hne
  rw [applyAll_orders, hadd.edited.commit.others o' hne, Option.none_or]

/-- The new lines: the line that was there merged, or a line more. -/
theorem Edit.newLines (h : Edit (.addItemToOS osId itemId quantity) o db r₀ r₁) {i : Uuid}
    (hi : itemId.column? = some i) :
    (∃ line ∈ r₀.items, itemId = line.itemId.text ∧ r₁.items = mergedLines r₀.items i quantity) ∨
      ((∀ line ∈ r₀.items, itemId ≠ line.itemId.text) ∧
        r₁.items = r₀.items ++ [⟨i, quantity⟩]) := by
  have hcols := h.revision.newItems _ rfl
  by_cases hthere : ∃ line ∈ r₀.items, itemId = line.itemId.text
  · left
    rcases hthere with ⟨line, hline, hspelled⟩
    have hid : line.itemId = i := by
      rw [hspelled] at hi
      exact Option.some.inj hi
    rw [addedLines_merged hline hspelled, hid] at hcols
    exact ⟨line, hline, hspelled, eq_of_columns hcols⟩
  · right
    have hnone : ∀ line ∈ r₀.items, itemId ≠ line.itemId.text := by
      intro line hline hspelled
      exact hthere ⟨line, hline, hspelled⟩
    rw [addedLines_appended hnone, List.map_append, List.map_singleton,
      IdText.stored?_of_column? hi] at hcols
    rcases List.map_eq_append_iff.mp hcols with ⟨old, last, hsplit, hold, hlast⟩
    rcases List.map_eq_singleton_iff.mp hlast with ⟨l, hl, hpair⟩
    have heq : l = ⟨i, quantity⟩ := by
      rcases l with ⟨a, b⟩
      simpa using hpair
    refine ⟨hnone, ?_⟩
    rw [hsplit, eq_of_columns hold, hl, heq]

theorem Edit.unitsAdded (h : Edit (.addItemToOS osId itemId quantity) o db r₀ r₁) {db' : Db}
    (hdone : EditDone (.addItemToOS osId itemId quantity) o r₀ r₁ db db')
    (hothers : ∀ o', o' ≠ o → db'.orders.find? o' = db.orders.find? o') (hq : 1 ≤ quantity) :
    ∃ i item, itemId.column? = some i ∧ UnitsAdded o i quantity r₀ r₁ item db db' := by
  rcases h.possible with ⟨i, item, hi, hitem, havailable⟩
  have hcols := h.revision.newItems _ rfl
  refine ⟨i, item, hi, h.found, h.status, hq, hitem, havailable, ?_, ?_, hdone.order, ?_, ?_, ?_, ?_,
    hothers⟩
  · rw [hdone.items i, hitem, Op.units, if_pos hi]
    simp [ItemRow.shift]
  · intro j hj
    have hunits : Op.units r₀.items j (.addItemToOS osId itemId quantity) = 0 := by
      rw [Op.units, if_neg]
      intro hcol
      exact hj (Option.some.inj (hcol.symm.trans hi))
    rw [hdone.items j, hunits]
    simp [ItemRow.shift]
  · exact h.revision.unique (revision_items r₀ hcols) rfl
  · exact h.checks.oneLinePerItem
  · rw [lineUnits_of_columns hcols i]
    rw [unitsOf_addedLines (one_line_per_item h.found) hi quantity i]
    simp [unitsAt]
  · rcases h.newLines hi with ⟨line, -, -, hmerged⟩ | ⟨-, happended⟩
    · rw [hmerged]
      exact mergedLines_others _ _ _
    · rw [happended, List.filter_append, List.filter_singleton]
      simp

/-- A call that succeeds with no units to add took them from a line, or added none. -/
theorem Edit.lineStays (h : Edit (.addItemToOS osId itemId quantity) o db r₀ r₁)
    (ho : osId.column? = some o) (hq : quantity ≤ 0) :
    ∃ line item, LineStays db osId itemId quantity o r₀ line item := by
  rcases h.possible with ⟨i, item, hi, hitem, -⟩
  have hversion : r₁.version = r₀.version + 1 := congrArg OrderColumns.version h.revision.columns
  have hcounter := (h.counters i item hitem).reservedNonNegative
  rw [Op.units, if_pos hi] at hcounter
  rcases h.newLines hi with ⟨line, hline, hspelled, hmerged⟩ | ⟨-, happended⟩
  · have hid : line.itemId = i := by
      rw [hspelled] at hi
      exact Option.some.inj hi
    have hmem : (⟨i, line.quantity + quantity⟩ : ItemLine) ∈ r₁.items := by
      rw [hmerged]
      exact List.mem_map.mpr ⟨line, hline, if_pos hid⟩
    refine ⟨line, item, ho, h.found, h.status, hline, hspelled,
      h.checks.quantityPositive _ hmem, ?_, hcounter, ?_, ?_⟩
    · rw [hid]
      exact hitem
    · intro l hl
      by_cases hli : l.itemId = i
      · rw [hli, hitem]
        rfl
      · refine h.items rfl l ?_
        rw [hmerged]
        exact List.mem_map.mpr ⟨l, hl, if_neg hli⟩
    · have hfits := h.checks.versionFits
      rw [hversion] at hfits
      push_cast at hfits
      omega
  · -- a line of no units is refused
    have hmem : (⟨i, quantity⟩ : ItemLine) ∈ r₁.items := by
      rw [happended]
      simp
    have hpositive : 0 < quantity := h.checks.quantityPositive _ hmem
    omega

/-! ## When no units are added -/

/-- The merged line keeps some units, so the lines satisfy the checks. -/
theorem LineStays.checks {line : ItemLine} {item : ItemRow}
    (h : LineStays db osId itemId quantity o r₀ line item) (hq : quantity ≤ 0) :
    OrderRow.Checks { r₀ with
      items := mergedLines r₀.items line.itemId quantity, version := r₀.version + 1 } := by
  have hr₀ : r₀.Checks := Table.check_of_find? (α := OrderRow) h.found
  have hlines : ∀ l ∈ mergedLines r₀.items line.itemId quantity,
      0 < l.quantity ∧ l.quantity ≤ maxInteger := by
    intro l hl
    rcases List.mem_map.mp hl with ⟨old, hold, rfl⟩
    have hpositive := hr₀.quantityPositive old hold
    have hfits := hr₀.quantityFits old hold
    by_cases hid : old.itemId = line.itemId
    · -- ids name lines, so it is the one that is merged
      have heq : old = line := List.inj_on_of_nodup_map hr₀.oneLinePerItem hold h.lineFound hid
      have hstays := h.stays
      rw [if_pos hid]
      subst heq
      constructor
      · exact hstays
      · show old.quantity + quantity ≤ maxInteger
        omega
    · rw [if_neg hid]
      exact ⟨hpositive, hfits⟩
  exact { hr₀ with
    oneLinePerItem := by
      rw [mergedLines_items]
      exact hr₀.oneLinePerItem
    quantityPositive := fun l hl => (hlines l hl).1
    quantityFits := fun l hl => (hlines l hl).2
    versionFits := by
      have hroom := h.room
      push_cast
      omega }

/-- So the call goes through. -/
theorem LineStays.edit {line : ItemLine} {item : ItemRow}
    (h : LineStays db osId itemId quantity o r₀ line item) (hq : quantity ≤ 0) :
    Edit (.addItemToOS osId itemId quantity) o db r₀ { r₀ with
      items := mergedLines r₀.items line.itemId quantity, version := r₀.version + 1 } := by
  have hi : itemId.column? = some line.itemId := by
    rw [h.spelled]
    rfl
  have hitem : item.Checks := Table.check_of_find? (α := ItemRow) h.itemFound
  have hwithin := hitem.reservedWithinStock
  have hcols : (mergedLines r₀.items line.itemId quantity).map (fun x => (some x.itemId, x.quantity))
      = (addedLines (entityItems r₀.items) itemId quantity).map
          (fun x => (x.itemId.stored?, x.quantity)) := by
    rw [addedLines_merged h.lineFound h.spelled]
    exact entityItems_columns _
  refine ⟨h.found, h.status, ?_, revision_items r₀ hcols, h.checks hq, ?_, ?_, ?_⟩
  · refine ⟨line.itemId, item, hi, h.itemFound, ?_⟩
    show quantity ≤ item.stockQuantity - item.reservedQuantity
    omega
  · intro j row hrow
    by_cases hj : itemId.column? = some j
    · have heq : j = line.itemId := Option.some.inj (hj.symm.trans hi)
      rw [heq, h.itemFound, Option.some.injEq] at hrow
      have hreserved := h.reserved
      rw [Op.units, if_pos hj, ← hrow]
      exact { hitem with
        stockNonNegative := by simpa [ItemRow.shift] using hitem.stockNonNegative
        reservedNonNegative := hreserved
        reservedWithinStock := by
          simp only [ItemRow.shift, add_zero]
          omega
        stockFits := by simpa [ItemRow.shift] using hitem.stockFits }
    · have hrow : row.Checks := Table.check_of_find? (α := ItemRow) hrow
      rw [Op.units, if_neg hj]
      simpa [ItemRow.shift] using hrow
  · intro hsome
    cases hsome
  · intro _ x hx
    rcases List.mem_map.mp hx with ⟨l, hl, rfl⟩
    by_cases hid : l.itemId = line.itemId
    · rw [if_pos hid]
      exact h.keys line h.lineFound
    · rw [if_neg hid]
      exact h.keys l hl

end Added

/-! ## The calls that only add -/

/-- On any tables: a call adds the units it is given and changes nothing else, or fails and
changes nothing, unless it has no unit to add and the order keeps its line. -/
theorem adding_only_adds_iff (w : World) (now : ℕ) (osId itemId : IdText) (quantity : ℤ) :
    AddingOnlyAdds w now osId itemId quantity ↔
      (1 ≤ quantity ∨ ¬∃ o row line item, LineStays w.db osId itemId quantity o row line item) := by
  unfold AddingOnlyAdds
  constructor
  · intro honly
    by_contra hno
    push Not at hno
    rcases hno with ⟨hq, o, row, line, item, hstays⟩
    have hop : (Op.addItemToOS osId itemId quantity).editsOrder o = true := by
      simp [Op.editsOrder, hstays.order]
    -- the line stays, so the call succeeds, and it adds less than one unit
    rcases (hstays.edit (by omega)).alone hop now with ⟨result, w', hrun, -⟩
    rw [hrun] at honly
    rcases honly with ⟨_, _, _, _, _, _, _, hadded⟩
    have hpositive := hadded.positive
    omega
  · intro hcond
    cases hrun : w.attempt now (program (.addItemToOS osId itemId quantity)) with
    | error failure =>
        simp only [World.perform, hrun]
    | ok p =>
        rcases p with ⟨result, w'⟩
        rcases World.attempt_committed hrun with ⟨tx, nextId, hcommitted, rfl⟩
        rcases hcommitted.added with ⟨o, r₀, r₁, ho, hedit, hdone, hothers⟩
        have hq : 1 ≤ quantity := by
          rcases hcond with hq | hnone
          · exact hq
          · by_contra hq
            -- a call that succeeded with no unit to add kept a line of the order
            rcases hedit.lineStays ho (by omega) with ⟨line, item, hstays⟩
            exact hnone ⟨o, r₀, line, item, hstays⟩
        rcases hedit.unitsAdded hdone hothers hq with ⟨i, item, hi, hadded⟩
        exact ⟨o, i, r₀, r₁, item, ho, hi, hadded⟩

/-- One of two units is taken back by adding minus one. -/
theorem negative_quantity_takes_units :
    (∃ result w', (World.performAll {} firstDiagnosis).attempt 6
        (program (.addItemToOS (Uuid.text 4) (Uuid.text 2) (-1))) = .ok (result, w') ∧
      (w'.db.orders.find? 4).map (·.items) = some [⟨2, 1⟩] ∧
      (w'.db.items.find? 2).map (·.reservedQuantity) = some 1) ∧
    ¬AddingOnlyAdds (World.performAll {} firstDiagnosis) 6 (Uuid.text 4) (Uuid.text 2) (-1) := by
  have hrun : ∃ p ∈ ((World.performAll {} firstDiagnosis).attempt 6
        (program (.addItemToOS (Uuid.text 4) (Uuid.text 2) (-1)))).toOption,
      (p.2.db.orders.find? 4).map (·.items) = some [⟨2, 1⟩] ∧
        (p.2.db.items.find? 2).map (·.reservedQuantity) = some 1 := by
    decide +kernel
  unfold AddingOnlyAdds
  cases hattempt : (World.performAll {} firstDiagnosis).attempt 6
      (program (.addItemToOS (Uuid.text 4) (Uuid.text 2) (-1))) with
  | error failure =>
      rw [hattempt] at hrun
      rcases hrun with ⟨p, hp, -⟩
      cases hp
  | ok p =>
      rw [hattempt] at hrun
      rcases hrun with ⟨q, hq, hafter⟩
      cases hq
      refine ⟨⟨p.1, p.2, rfl, hafter⟩, ?_⟩
      rintro ⟨o, i, row, row', item, -, -, hadded⟩
      have hpositive := hadded.positive
      omega

end CarRepairShop
