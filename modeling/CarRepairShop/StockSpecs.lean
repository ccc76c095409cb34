import CarRepairShop.RepositorySpecs

/-! # The stock, the catalogue and the messages among others

The specifications of the remaining repository functions the order operations
use. The stock moves are the heart of it: whatever others commit in between, a
transaction that reserves, releases or consumes moves the committed counters
of each item by the units it was asked for (`Shift`), since each move is
relative and locks the row it changes.
-/

namespace CarRepairShop

open Lib Txn Prog

/-! ## Moving the counters -/

/-- The row with its counters moved by `dr` reserved and `ds` stocked units. -/
def ItemRow.shift (row : ItemRow) (dr ds : ℤ) : ItemRow :=
  { row with
    stockQuantity := row.stockQuantity + ds
    reservedQuantity := row.reservedQuantity + dr }

@[simp] theorem ItemRow.shift_reservedQuantity (row : ItemRow) (dr ds : ℤ) :
    (row.shift dr ds).reservedQuantity = row.reservedQuantity + dr := rfl

@[simp] theorem ItemRow.shift_stockQuantity (row : ItemRow) (dr ds : ℤ) :
    (row.shift dr ds).stockQuantity = row.stockQuantity + ds := rfl

@[simp] theorem ItemRow.shift_zero (row : ItemRow) : row.shift 0 0 = row := by
  simp [ItemRow.shift]

theorem ItemRow.shift_shift (row : ItemRow) (a b c d : ℤ) :
    (row.shift a b).shift c d = row.shift (a + c) (b + d) := by
  simp [ItemRow.shift, add_assoc]

/-- `q` units of item `i`, and none of any other. -/
def unitsAt (i : Uuid) (q : ℤ) : Uuid → ℤ := fun j => if j = i then q else 0

/-- The units of item `i` in lines as a caller or an entity gives them. -/
def unitsOf (lines : List OSItem) (i : Uuid) : ℤ :=
  (lines.map fun line => if line.itemId.stored? = some i then line.quantity else 0).sum

/-- The units of item `i` in stored lines. -/
def lineUnits (lines : List ItemLine) (i : Uuid) : ℤ :=
  (lines.map fun line => if line.itemId = i then line.quantity else 0).sum

@[simp] theorem unitsOf_nil (i : Uuid) : unitsOf [] i = 0 := rfl

theorem unitsOf_append (l l' : List OSItem) (i : Uuid) :
    unitsOf (l ++ l') i = unitsOf l i + unitsOf l' i := by
  simp [unitsOf]

theorem unitsOf_singleton {line : OSItem} {i : Uuid} (h : line.itemId.column? = some i) (j : Uuid) :
    unitsOf [line] j = unitsAt i line.quantity j := by
  simp [unitsOf, unitsAt, IdText.stored?_of_column? h, eq_comm]

/-- Stored lines have the units of the lines they were stored from. -/
theorem lineUnits_of_columns {new : List ItemLine} {lines : List OSItem}
    (h : new.map (fun x => (some x.itemId, x.quantity)) =
      lines.map (fun x => (x.itemId.stored?, x.quantity))) (i : Uuid) :
    lineUnits new i = unitsOf lines i := by
  have hsum := congrArg (fun l => (l.map fun p : Option Uuid × ℤ =>
    if p.1 = some i then p.2 else 0).sum) h
  simp only [List.map_map] at hsum
  unfold lineUnits unitsOf
  simpa [Function.comp_def] using hsum

/-- The units of the lines of an entity are those of its row. -/
theorem unitsOf_text (lines : List ItemLine) (i : Uuid) :
    unitsOf (lines.map fun l => ⟨l.itemId.text, l.quantity⟩) i = lineUnits lines i := by
  symm
  apply lineUnits_of_columns
  simp

/-- The writes `ws` move the counters of the items of `db`: `dr` reserved and
`ds` stocked units of each. -/
def Shift (ws : List Write) (db : Db) (dr ds : Uuid → ℤ) : Prop :=
  ∀ i, (lastItem ws i = none ∧ dr i = 0 ∧ ds i = 0) ∨
    ∃ row, db.items.find? i = some row ∧ lastItem ws i = some (some (row.shift (dr i) (ds i)))

/-- One more item row is the last word on its item. -/
theorem lastItem_snoc (ws : List Write) {row : ItemRow} (hc : row.Checks) (i : Uuid) :
    lastItem (ws ++ [.putItem row hc]) i
      = if row.id = i then some (some row) else lastItem ws i := by
  rw [lastItem, lastOf_append]
  by_cases h : row.id = i
  · simp [Write.item?, h]
  · simp [Write.item?, h]

theorem Shift.none {ws : List Write} (h : ∀ i, lastItem ws i = none) (db : Db) :
    Shift ws db (fun _ => 0) (fun _ => 0) :=
  fun i => Or.inl ⟨h i, rfl, rfl⟩

section Shift

variable {ws : List Write} {db : Db} {dr ds : Uuid → ℤ}

/-- The rows moved are locked, so the others leave them. -/
theorem Shift.stable (h : Shift ws db dr ds) {db' : Db} (hrely : Rely ws db db') :
    Shift ws db' dr ds := by
  intro i
  rcases h i with h | ⟨row, hrow, hlast⟩
  · exact Or.inl h
  · refine Or.inr ⟨row, ?_, hlast⟩
    rw [hrely.itemHeld i _ hlast, hrow]

/-- What the items are after the writes. -/
theorem Shift.after (h : Shift ws db dr ds) (i : Uuid) :
    (postgres.applyAll db ws).items.find? i
      = (db.items.find? i).map fun row => row.shift (dr i) (ds i) := by
  rw [applyAll_items]
  rcases h i with ⟨hlast, hr, hs⟩ | ⟨row, hrow, hlast⟩
  · rw [hlast, hr, hs]
    cases db.items.find? i <;> simp
  · rw [hlast, hrow]
    rfl

/-- Writes that touch no item do not move the counters. -/
theorem Shift.append (h : Shift ws db dr ds) {ws' : List Write}
    (hno : ∀ i, lastItem ws' i = .none) : Shift (ws ++ ws') db dr ds := by
  intro i
  have heq : lastItem (ws ++ ws') i = lastItem ws i := by
    rw [lastItem, lastOf_append]
    rw [show lastOf (Write.item? i) ws' = .none from hno i]
    rfl
  rw [heq]
  exact h i

theorem Shift.congr (h : Shift ws db dr ds) {dr' ds' : Uuid → ℤ} (hr : ∀ i, dr i = dr' i)
    (hs : ∀ i, ds i = ds' i) : Shift ws db dr' ds' := by
  have e₁ : dr = dr' := funext hr
  have e₂ : ds = ds' := funext hs
  rw [← e₁, ← e₂]
  exact h

/-- One more relative move. -/
theorem Shift.snoc (h : Shift ws db dr ds) {i : Uuid} {row : ItemRow} {a b : ℤ}
    (hrow : (postgres.applyAll db ws).items.find? i = some row) (hc : (row.shift a b).Checks) :
    Shift (ws ++ [.putItem (row.shift a b) hc]) db (fun j => dr j + unitsAt i a j)
      (fun j => ds j + unitsAt i b j) := by
  have hrowId : row.id = i := item_id hrow
  have hid : (row.shift a b).id = i := hrowId
  rw [h.after i] at hrow
  intro j
  by_cases hj : j = i
  · subst hj
    rcases Option.map_eq_some_iff.mp hrow with ⟨row₀, hrow₀, hshift⟩
    refine Or.inr ⟨row₀, hrow₀, ?_⟩
    rw [lastItem_snoc, if_pos hid, ← hshift, ItemRow.shift_shift]
    simp [unitsAt]
  · have hid' : (row.shift a b).id ≠ j := by
      intro heq
      exact hj (heq.symm.trans hid)
    rw [lastItem_snoc, if_neg hid']
    simpa [unitsAt, hj] using h j

end Shift

theorem storeItem_ok {row : ItemRow} {ws : List Write} (h : storeItem row = .ok ws) :
    ∃ hc : row.Checks, ws = [.putItem row hc] := by
  unfold storeItem at h
  split at h
  · next hc =>
    cases h
    exact ⟨hc, rfl⟩
  · cases h

/-- A conditional update of an item changes its row, or counts none. -/
theorem changeItemIf_ok {db : Db} {i : Uuid} {q : ℤ} {cond : ItemRow → Bool}
    {f : ItemRow → ItemRow} {n : ℕ} {ws : List Write} (h : changeItemIf db i q cond f = .ok (n, ws)) :
    (n = 0 ∧ ws = []) ∨ (n = 1 ∧ ∃ row, ∃ hc : (f row).Checks,
      db.items.find? i = some row ∧ cond row = true ∧ ws = [.putItem (f row) hc]) := by
  unfold changeItemIf at h
  split at h
  · split at h
    · cases h
      exact Or.inl ⟨rfl, rfl⟩
    · next row hrow =>
      split at h
      · next hcond =>
        rcases map_ok h with ⟨ws', hst, heq⟩
        cases heq
        rcases storeItem_ok hst with ⟨hc, rfl⟩
        exact Or.inr ⟨rfl, row, hc, hrow, hcond, rfl⟩
      · cases h
        exact Or.inl ⟨rfl, rfl⟩
  · cases h

/-- What a relative move of item `i` did, between `tx` and `tx'`. -/
structure Moved (i : Uuid) (cond : ItemRow → Bool) (a b : ℤ) (dr ds : Uuid → ℤ) (tx tx' : ShopTx)
    (db : Db) (ws : List Write) : Prop where
  continues : Continues tx tx' ws []
  writes : ItemWrites ws
  one : ws.length = 1
  written : ∃ x, lastItem ws i = some x
  shift : Shift tx'.writes db (fun j => dr j + unitsAt i a j) (fun j => ds j + unitsAt i b j)
  condition : ∃ row, (postgres.view tx db).items.find? i = some row ∧ cond row = true

section Specs

variable {R : List Write → Db → Db → Prop} {G : ShopTx → Stmt → Db → Prop}

/-- A relative move that changed a row, as seen when it is done. -/
theorem moved_of_changeItemIf (hR : ShopInterference R) {tx : ShopTx} {db d db' : Db} {i : Uuid}
    {q : ℤ} {cond : ItemRow → Bool} {f : ItemRow → ItemRow} {n : ℕ} {ws : List Write} {a b : ℤ}
    {dr ds : Uuid → ℤ} (hf : ∀ row, f row = row.shift a b) (h : Shift tx.writes db dr ds)
    (h₁ : R tx.writes db d) (he : changeItemIf (postgres.view tx d) i q cond f = .ok (n, ws))
    (hn : n = 1) {s : Stmt} {r : s.Resp} (hs : Answered.claim? ⟨s, r⟩ = none)
    (h₂ : R (tx.record s r ws).writes d db') :
    Moved i cond a b dr ds tx (tx.record s r ws) db' ws := by
  rcases changeItemIf_ok he with ⟨h0, -⟩ | ⟨-, row, hc, hrow, hcond, rfl⟩
  · omega
  · have hshift := h.stable (hR.rely _ _ _ h₁)
    simp only [hf] at hc h₂ ⊢
    have hsnoc := hshift.snoc hrow hc
    have hfin := hsnoc.stable (hR.rely _ _ _ h₂)
    have hid : row.id = i := item_id hrow
    refine ⟨?_, ?_, rfl, ?_, hfin, ?_⟩
    · exact (Continues.refl tx).record hs
    · intro w hw
      exact ⟨_, hc, List.mem_singleton.mp hw⟩
    · exact ⟨_, (lastItem_snoc [] hc i).trans (if_pos hid)⟩
    · -- the row is locked, so it is still the one the condition was checked on
      refine ⟨row, ?_, hcond⟩
      have hlast : lastItem (tx.writes ++ [.putItem (row.shift a b) hc]) i
          = some (some (row.shift a b)) := by
        rw [lastItem_snoc]
        exact if_pos hid
      have hheld := (hR.rely _ _ _ h₂).itemHeld i _ hlast
      rw [Engine.view, applyAll_items, hheld, ← applyAll_items]
      exact hrow

theorem ItemRepository.reserve_ensures (hR : ShopInterference R) (id : IdText) (q : ℤ)
    {tx : ShopTx} {db : Db} {dr ds : Uuid → ℤ} (h : Shift tx.writes db dr ds) :
    (ItemRepository.reserve id q).Ensures postgres R G
      (fun reserved tx' db' => reserved = true → ∃ i ws, id.column? = some i ∧
        Moved i (fun row => row.stockQuantity - row.reservedQuantity ≥ q) q 0 dr ds tx tx' db' ws)
      tx db := by
  unfold ItemRepository.reserve
  cases hid : id.column? with
  | none =>
      intro db' _ hfalse
      cases hfalse
  | some i =>
      refine ensures_sql.mpr fun d h₁ _ n ws he => ?_
      intro db' h₂ hn
      refine ⟨i, ws, rfl, moved_of_changeItemIf hR ?_ h h₁ he (by simpa using hn) rfl h₂⟩
      intro row
      simp [ItemRow.shift]

theorem ItemRepository.release_ensures (hR : ShopInterference R) (id : IdText) (q : ℤ)
    {tx : ShopTx} {db : Db} {dr ds : Uuid → ℤ} (h : Shift tx.writes db dr ds) :
    (ItemRepository.release id q).Ensures postgres R G
      (fun released tx' db' => released = true → ∃ i ws, id.column? = some i ∧
        Moved i (fun row => row.reservedQuantity ≥ q) (-q) 0 dr ds tx tx' db' ws) tx db := by
  unfold ItemRepository.release
  cases hid : id.column? with
  | none =>
      intro db' _ hfalse
      -- an id that is no UUID releases nothing
      cases hfalse
  | some i =>
      refine ensures_sql.mpr fun d h₁ _ n ws he => ?_
      intro db' h₂ hn
      refine ⟨i, ws, rfl, moved_of_changeItemIf hR ?_ h h₁ he (by simpa using hn) rfl h₂⟩
      intro row
      simp [ItemRow.shift, sub_eq_add_neg]

theorem ItemRepository.consume_ensures (hR : ShopInterference R) (id : IdText) (q : ℤ)
    {tx : ShopTx} {db : Db} {dr ds : Uuid → ℤ} (h : Shift tx.writes db dr ds) :
    (ItemRepository.consume id q).Ensures postgres R G
      (fun consumed tx' db' => consumed = true → ∃ i ws, id.column? = some i ∧
        Moved i (fun row => row.reservedQuantity ≥ q ∧ row.stockQuantity ≥ q) (-q) (-q) dr ds
          tx tx' db' ws) tx db := by
  unfold ItemRepository.consume
  cases hid : id.column? with
  | none =>
      intro db' _ hfalse
      cases hfalse
  | some i =>
      refine ensures_sql.mpr fun d h₁ _ n ws he => ?_
      intro db' h₂ hn
      refine ⟨i, ws, rfl, moved_of_changeItemIf hR ?_ h h₁ he (by simpa using hn) rfl h₂⟩
      intro row
      simp [ItemRow.shift, sub_eq_add_neg]

/-! ## Reading the catalogue -/

theorem ItemRepository.findById_ensures (hR : ShopInterference R) (id : IdText) {tx : ShopTx}
    {db : Db} :
    (ItemRepository.findById id).Ensures postgres R G
      (fun found tx' db' => Continues tx tx' [] [] ∧
        ∀ i, id.column? = some i →
          (∃ row : Option ItemRow, found = row.map ItemRow.toEntity ∧
            itemRowRead i tx'.trace = (itemRowRead i tx.trace).or (some row) ∧
            Was R (fun d => (postgres.view tx d).items.find? i = row) db')) tx db := by
  unfold ItemRepository.findById
  cases hid : id.column? with
  | none =>
      intro db' _
      refine ⟨Continues.refl tx, ?_⟩
      intro i hi
      cases hi
  | some i =>
      refine ensures_sql.mpr fun d _ _ row ws he => ?_
      simp only [exec, Except.ok.injEq, Prod.mk.injEq] at he
      rcases he with ⟨hrow, rfl⟩
      intro db' h'
      refine ⟨(Continues.refl tx).read rfl, ?_⟩
      intro i' hi'
      cases hi'
      refine ⟨row, rfl, ?_, ?_⟩
      -- the first read of the item counts
      · rw [Tx.record_trace, itemRowRead_append]
        congr 1
        simp [itemRowRead, Answered.itemRow?]
      · exact (Was.now hR.toInterference hrow).stable hR.toInterference h'

theorem ServiceRepository.findById_ensures (id : IdText) {tx : ShopTx} {db : Db} :
    (ServiceRepository.findById id).Ensures postgres R G
      (fun found tx' _ => Continues tx tx' [] [] ∧
        ∀ service, found = some service → ∃ s, id.column? = some s ∧ service.id = s.text)
      tx db := by
  unfold ServiceRepository.findById
  cases hid : id.column? with
  | none =>
      intro db' _
      refine ⟨Continues.refl tx, ?_⟩
      intro service hs
      cases hs
  | some s =>
      refine ensures_sql.mpr fun d _ _ row ws he => ?_
      simp only [exec, Except.ok.injEq, Prod.mk.injEq] at he
      rcases he with ⟨rfl, rfl⟩
      intro db' _
      refine ⟨(Continues.refl tx).read rfl, ?_⟩
      intro service hs
      rcases Option.map_eq_some_iff.mp hs with ⟨row, hrow, rfl⟩
      have hkey : row.id = s := Table.key_of_find? (α := ServiceRow) hrow
      exact ⟨s, rfl, by rw [ServiceRow.toEntity, hkey]⟩

theorem CustomerRepository.findById_ensures (hR : ShopInterference R) (id : IdText)
    {tx : ShopTx} {db : Db} :
    (CustomerRepository.findById id).Ensures postgres R G
      (fun found tx' db' => Continues tx tx' [] [] ∧
        ∀ customer, found = some customer → ∃ c, id.column? = some c ∧
          Was R (fun d => ∃ row, (postgres.view tx d).customers.find? c = some row ∧
            row.deletedAt = none) db') tx db := by
  unfold CustomerRepository.findById
  cases hid : id.column? with
  | none =>
      intro db' _
      refine ⟨Continues.refl tx, ?_⟩
      intro customer hc
      cases hc
  | some c =>
      refine ensures_sql.mpr fun d _ _ row ws he => ?_
      simp only [exec, Except.ok.injEq, Prod.mk.injEq] at he
      rcases he with ⟨rfl, rfl⟩
      intro db' h'
      refine ⟨(Continues.refl tx).read rfl, ?_⟩
      intro customer hcust
      refine ⟨c, rfl, ?_⟩
      rcases Option.map_eq_some_iff.mp hcust with ⟨row, hrow, -⟩
      -- the read answers active customers only
      rcases Option.filter_eq_some_iff.mp hrow with ⟨hfind, hactive⟩
      have hnow : Was R (fun d => ∃ row, (postgres.view tx d).customers.find? c = some row ∧
          row.deletedAt = none) d :=
        Was.now hR.toInterference ⟨row, hfind, by simpa using hactive⟩
      exact hnow.stable hR.toInterference h'

/-! ## Messages -/

/-- The row `row` stores `message` for order `o`, not published yet. -/
structure Carries (row : OutboxRow) (o : Uuid) (message : OutgoingMessage) : Prop where
  order : row.serviceOrderId = o
  destination : row.destination = message.destination
  type : row.type = message.type
  payload : row.payload = message.payload
  unpublished : row.publishedAt = none

theorem Outbox.add_ensures (traceparent : Option String) (message : OutgoingMessage) {tx : ShopTx}
    {db : Db} :
    (Outbox.add traceparent message).Ensures postgres R G
      (fun _ tx' _ => ∃ o row, message.serviceOrderId.stored? = some o ∧ Carries row o message ∧
        Continues tx tx' [.addOutbox row] []) tx db := by
  unfold Outbox.add
  cases hid : message.serviceOrderId.stored? with
  | none => trivial
  | some o =>
      intro id createdAt
      refine ensures_sql.mpr fun d _ _ u ws he => ?_
      simp only [exec, Except.ok.injEq, Prod.mk.injEq] at he
      rcases he with ⟨-, rfl⟩
      intro db' _
      refine ⟨o, { id, destination := message.destination, type := message.type, serviceOrderId := o
                   payload := message.payload, traceparent, createdAt, publishedAt := none }, rfl,
        ⟨rfl, rfl, rfl, rfl, rfl⟩, ?_⟩
      exact (Continues.refl tx).record rfl

/-- Recording a message is the first thing its unit of work does. A message
that was not recorded is now, under a lock that keeps any other unit of work
from recording it too. -/
theorem ProcessedMessages.markProcessed_ensures (hR : ShopInterference R) (messageId : IdText)
    (type : String) {db : Db} :
    (ProcessedMessages.markProcessed messageId type).Ensures postgres R G
      (fun marked tx' db' => ∃ m, messageId.stored? = some m ∧
        (marked = false → Continues {} tx' [] [] ∧ ∃ r, db'.processed.find? m = some r) ∧
        (marked = true → db'.processed.find? m = none ∧ ∃ row : ProcessedRow, row.messageId = m ∧
          Continues {} tx' [.putProcessed row] [])) {} db := by
  unfold ProcessedMessages.markProcessed
  intro processedAt
  refine ensures_sql.mpr fun d _ _ count ws he => ?_
  simp only [exec] at he
  split at he
  · cases he
  · next m hm =>
    split at he
    · -- already recorded: the insert skips it
      next hsome =>
      simp only [Except.ok.injEq, Prod.mk.injEq] at he
      rcases he with ⟨rfl, rfl⟩
      intro db' h'
      refine ⟨m, hm, ?_, by simp⟩
      intro _
      refine ⟨(Continues.refl _).read rfl, ?_⟩
      rcases Option.isSome_iff_exists.mp hsome with ⟨r, hr⟩
      exact ⟨r, (hR.rely _ _ _ h').recordStays m r hr⟩
    -- not recorded: the insert holds the key until the commit
    · next hnone =>
      simp only [Except.ok.injEq, Prod.mk.injEq] at he
      rcases he with ⟨rfl, rfl⟩
      intro db' h'
      refine ⟨m, hm, by simp, ?_⟩
      intro _
      refine ⟨?_, _, rfl, (Continues.refl _).record rfl⟩
      have hd : d.processed.find? m = none := by
        cases hf : d.processed.find? m with
        | none => rfl
        | some r => simp [Engine.view, hf] at hnone
      rw [(hR.rely _ _ _ h').recordHeld m ⟨m, type, processedAt⟩ (by simp [Write.processed?]), hd]

end Specs

end CarRepairShop
