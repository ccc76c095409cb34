import CarRepairShop.Stock

/-! # The stock counter among concurrent transactions

Reserving, releasing and consuming are relative updates that lock the row they
change, so a transaction moves the counter by its own amount whatever others
commit around it. The removal of a line is the exception: it reads the counter,
and later writes what it read less the quantity of the line. `StaleRemoval` is
the commit of a removal whose reading is out of date by then, and
`counters_move_exactly_iff` says that these commits, and no others, change a
counter by something else than their own amount.
-/

namespace CarRepairShop

open Lib Txn

/-! ## Amounts -/

/-- The operations that move counters for orders. -/
def Op.movesStock : Op → Bool
  | .createServiceOrder .. | .addItemToOS .. | .removeItemFromOS .. => true
  | .handle .. | .handleFailedCommand .. => true
  | _ => false

/-- The units of item `i` on the lines of an order. -/
def orderUnits (db : Db) (orderId : IdText) (i : Uuid) : ℤ :=
  match orderId.column? with
  | none => 0
  | some o => ((db.orders.find? o).map fun r => lineUnits r.items i).getD 0

/-- The quantity of the line that a removal found in the lines it read. -/
def removedQuantity (osId itemId : IdText) (trace : List Answered) : ℤ :=
  match osId.column? with
  | none => 0
  | some o => (((itemLinesRead o trace).bind fun lines =>
      (entityItems lines).find? fun l => l.itemId = itemId).map (·.quantity)).getD 0

/-- The units that handling a message moves, when it is applied. -/
def reactionUnits (reaction : Option Reaction) (c : ShopCommit) (orderId : IdText) (i : Uuid) : ℤ :=
  if c.result.handled = some .applied then
    (reaction.map (·.reserved)).getD 0 * orderUnits c.before orderId i
  else 0

/-- The commit's own amount of reserved units of item `i`: plus what it
reserves, minus the released, consumed or removed quantity of the lines. -/
def amount (c : ShopCommit) (i : Uuid) : ℤ :=
  match c.op with
  | .createServiceOrder input _ => unitsOf input.items i
  | .addItemToOS _ itemId quantity => if itemId.column? = some i then quantity else 0
  | .removeItemFromOS osId itemId =>
      if itemId.column? = some i then -removedQuantity osId itemId c.tx.trace else 0
  | .handle reply _ => reactionUnits (replyReaction reply.type) c reply.serviceOrderId i
  | .handleFailedCommand command _ =>
      reactionUnits (failedCommandReaction command.type) c command.serviceOrderId i
  | _ => 0

/-- The commit changes the reserved units of each item by its own amount. -/
def MovesExactly (c : ShopCommit) : Prop :=
  ∀ i row row', c.before.items.find? i = some row → (c.after postgres).items.find? i = some row' →
    row'.reservedQuantity = row.reservedQuantity + amount c i

/-- The commit of a removal that read another counter than the one it replaces. -/
def StaleRemoval (c : ShopCommit) : Prop :=
  ∃ osId itemId, c.op = .removeItemFromOS osId itemId ∧ ∃ i, itemId.column? = some i ∧
    ∃ readRow row, itemRowRead i c.tx.trace = some (some readRow) ∧
      c.before.items.find? i = some row ∧ readRow.reservedQuantity ≠ row.reservedQuantity

/-! ## What the others leave -/

/-- Beyond what every unit of work relies on: the operations that move stock
neither add nor remove items. -/
def StockRely (ws : List Write) (a b : Db) : Prop :=
  Rely ws a b ∧ ∀ i, (b.items.find? i).isSome = (a.items.find? i).isSome

theorem shopInterference_stock : ShopInterference StockRely where
  refl ws db := ⟨Rely.refl ws db, fun _ => rfl⟩
  trans _ _ _ _ h h' := ⟨h.1.trans h'.1, fun i => (h'.2 i).trans (h.2 i)⟩
  held _ _ _ _ h := ⟨h.1.held, h.2⟩
  rely _ _ _ h := h.1

/-- An item that was gone is gone. -/
theorem was_gone {i : Uuid} {db : Db} (h : Was StockRely (fun d => d.items.find? i = none) db) :
    db.items.find? i = none := by
  rcases h with ⟨d, hd, hnone⟩
  have hsome := hd.2 i
  rw [hnone] at hsome
  exact Option.isSome_eq_false_iff.mp hsome |> Option.isNone_iff_eq_none.mp

/-! ## Each operation -/

section Operations

variable {G : ShopTx → Stmt → Db → Prop} {op : Op} {result : Outcome} {tx : ShopTx} {db : Db}

/-- A commit that moves the counters relatively, by its own amount. -/
theorem Shift.exact {dr ds : Uuid → ℤ} (h : Shift tx.writes db dr ds) {i : ℕ}
    (hdr : ∀ j, amount ⟨i, op, result, tx, db⟩ j = dr j) : MovesExactly ⟨i, op, result, tx, db⟩ := by
  intro j row row' hrow hrow'
  have hafter : (postgres.applyAll db tx.writes).items.find? j = some row' := hrow'
  have hbefore : db.items.find? j = some row := hrow
  rw [h.after, hbefore, Option.map_some, Option.some.injEq] at hafter
  rw [hdr j, ← hafter]
  rfl

/-- What one kind of commit does to the counters: it keeps the catalogue, and
moves exactly unless it is a stale removal. -/
structure StockMove (c : ShopCommit) : Prop where
  catalogue : ∀ j, ((c.after postgres).items.find? j).isSome = (c.before.items.find? j).isSome
  exact_iff : MovesExactly c ↔ ¬ StaleRemoval c

/-- A relative move is exact. -/
theorem Shift.stockMove {dr ds : Uuid → ℤ} (h : Shift tx.writes db dr ds) {i : ℕ}
    (hdr : ∀ j, amount ⟨i, op, result, tx, db⟩ j = dr j)
    (hop : ∀ osId itemId, op ≠ .removeItemFromOS osId itemId) :
    StockMove ⟨i, op, result, tx, db⟩ where
  catalogue := h.isSome
  exact_iff := by
    constructor
    · rintro - ⟨osId, itemId, heq, -⟩
      exact hop osId itemId heq
    · intro _
      exact h.exact hdr

/-- The line of an item is the one found under its id. -/
theorem find_entityItems {lines : List ItemLine} {line : ItemLine}
    (hnodup : (lines.map (·.itemId)).Nodup) (hmem : line ∈ lines) :
    (entityItems lines).find? (fun l => l.itemId = line.itemId.text)
      = some ⟨line.itemId.text, line.quantity⟩ := by
  induction lines with
  | nil => cases hmem
  | cons l ls ih =>
      rw [List.map_cons, List.nodup_cons] at hnodup
      by_cases hl : l.itemId = line.itemId
      · rcases List.mem_cons.mp hmem with heq | hmem
        · simp [entityItems, heq]
        · -- another line of the same item
          exfalso
          apply hnodup.1
          rw [hl]
          exact List.mem_map_of_mem hmem
      · rcases List.mem_cons.mp hmem with heq | hmem
        · exact absurd (by rw [heq]) hl
        · have hrest := ih hnodup.2 hmem
          simpa [entityItems, hl] using hrest

/-- The line a removal takes out is the one it found. -/
theorem ItemRemoved.quantity {R : List Write → Db → Db → Prop} {o : Uuid} {osId itemId : IdText}
    {line : ItemLine} {ids : List Uuid} {lines : List ItemLine} {r₀ r₁ : OrderRow}
    {itemWrites : List Write} (h : ItemRemoved R G o itemId line ids lines r₀ r₁ itemWrites tx db)
    (ho : osId.column? = some o) : removedQuantity osId itemId tx.trace = line.quantity := by
  -- the lines read are those of a stored row, one for each item
  have hnodup : (lines.map (·.itemId)).Nodup := by
    rcases h.edited.readItems with ⟨d, -, r, hr, hlines⟩
    rw [← hlines]
    exact one_line_per_item hr
  have hfind : (entityItems lines).find? (fun l => l.itemId = itemId)
      = some ⟨line.itemId.text, line.quantity⟩ := by
    rw [h.item]
    exact find_entityItems hnodup h.inOrder
  unfold removedQuantity
  rw [ho]
  simp only [h.edited.itemsRead, Option.bind_some, hfind, Option.map_some, Option.getD_some]

/-- A removal writes no item but that of its line, which it found. -/
theorem ItemRemoved.catalogue {R : List Write → Db → Db → Prop} {o : Uuid} {itemId : IdText}
    {line : ItemLine} {ids : List Uuid} {lines : List ItemLine} {r₀ r₁ : OrderRow}
    {itemWrites : List Write} (h : ItemRemoved R G o itemId line ids lines r₀ r₁ itemWrites tx db)
    (j : Uuid) : ((postgres.applyAll db tx.writes).items.find? j).isSome
      = (db.items.find? j).isSome := by
  rcases h.counter with ⟨hnone, -⟩ | ⟨readRow, row, hcounter⟩
  · have huntouched : lastItem tx.writes j = none := by
      rcases h.edited.writes with ⟨ws, hws, hord⟩
      rw [hws, hnone, List.nil_append]
      exact hord.item j
    rw [applyAll_items, huntouched]
    rfl
  · have hafter : (postgres.applyAll db tx.writes).items.find? j =
        if j = line.itemId then
          some { row with reservedQuantity := readRow.reservedQuantity - line.quantity }
        else db.items.find? j := hcounter.only.after j
    rw [hafter]
    by_cases hj : j = line.itemId
    · rw [if_pos hj, hj, hcounter.found]
      rfl
    · rw [if_neg hj]

theorem ItemRemoved.stockMove {o : Uuid} {osId itemId : IdText} {line : ItemLine} {ids : List Uuid}
    {lines : List ItemLine} {r₀ r₁ : OrderRow} {itemWrites : List Write} {i : ℕ}
    (h : ItemRemoved StockRely G o itemId line ids lines r₀ r₁ itemWrites tx db)
    (ho : osId.column? = some o) : StockMove ⟨i, .removeItemFromOS osId itemId, result, tx, db⟩ := by
  have hcol : itemId.column? = some line.itemId := by
    rw [h.item]
    rfl
  have hamount : ∀ j, amount ⟨i, .removeItemFromOS osId itemId, result, tx, db⟩ j
      = unitsAt line.itemId (-line.quantity) j := by
    intro j
    simp only [amount, hcol, h.quantity ho, Option.some.injEq, unitsAt, eq_comm]
  refine ⟨h.catalogue, ?_⟩
  rcases h.counter with ⟨hnone, hgone⟩ | ⟨readRow, row, hcounter⟩
  · -- the item is not in the catalogue: nothing to change
    have hmissing := was_gone hgone
    have huntouched : ∀ j, lastItem tx.writes j = none := by
      intro j
      rcases h.edited.writes with ⟨ws, hws, hord⟩
      rw [hws, hnone, List.nil_append]
      exact hord.item j
    have hsame : ∀ j, (postgres.applyAll db tx.writes).items.find? j = db.items.find? j := by
      intro j
      rw [applyAll_items, huntouched j]
      rfl
    constructor
    -- a stale read is of an item that is there, and this one is not
    · rintro - ⟨osId', itemId', heq, k, hk, readRow, row, -, hrow, -⟩
      cases heq
      rw [hcol, Option.some.injEq] at hk
      have hrow' : db.items.find? k = some row := hrow
      rw [← hk, hmissing] at hrow'
      cases hrow'
    · intro _ j row row' hrow hrow'
      have hbefore : db.items.find? j = some row := hrow
      have hafter : (postgres.applyAll db tx.writes).items.find? j = some row' := hrow'
      have hj : j ≠ line.itemId := by
        intro hj
        rw [hj, hmissing] at hbefore
        cases hbefore
      rw [hsame, hbefore, Option.some.injEq] at hafter
      rw [hamount j, unitsAt, if_neg hj, ← hafter, add_zero]
  · have hafter : ∀ j, (postgres.applyAll db tx.writes).items.find? j =
        if j = line.itemId then
          some { row with reservedQuantity := readRow.reservedQuantity - line.quantity }
        else db.items.find? j := hcounter.only.after
    constructor
    · -- an exact move leaves the counter that was read less the line, so it was read as it is
      rintro hexact ⟨osId', itemId', heq, k, hk, readRow', row', hread, hrow, hne⟩
      cases heq
      rw [hcol, Option.some.injEq] at hk
      subst hk
      have hread' : itemRowRead line.itemId tx.trace = some (some readRow') := hread
      have hrow' : db.items.find? line.itemId = some row' := hrow
      rw [hcounter.read, Option.some.injEq, Option.some.injEq] at hread'
      rw [hcounter.found, Option.some.injEq] at hrow'
      have hmoved := hexact line.itemId row _ hcounter.found
        ((hafter line.itemId).trans (if_pos rfl))
      rw [hamount, unitsAt, if_pos rfl] at hmoved
      simp only at hmoved
      apply hne
      rw [← hread', ← hrow']
      omega
    · intro hfresh j row₀ row₁ hrow₀ hrow₁
      have hbefore : db.items.find? j = some row₀ := hrow₀
      have hthen : (postgres.applyAll db tx.writes).items.find? j = some row₁ := hrow₁
      rw [hafter j] at hthen
      rw [hamount j, unitsAt]
      by_cases hj : j = line.itemId
      · rw [if_pos hj, Option.some.injEq] at hthen
        rw [hj, hcounter.found, Option.some.injEq] at hbefore
        have heq : readRow.reservedQuantity = row.reservedQuantity := by
          -- a counter that moved since it was read is what `hfresh` excludes
          by_contra hne
          exact hfresh ⟨osId, itemId, rfl, line.itemId, hcol, readRow, row, hcounter.read,
            hcounter.found, hne⟩
        rw [if_pos hj, ← hthen, ← hbefore]
        simp only [heq]
        omega
      · rw [if_neg hj, hbefore, Option.some.injEq] at hthen
        rw [if_neg hj, hthen, add_zero]

/-- A reaction moves the counters by its own amount. -/
theorem Performed.units {reaction : Reaction} {o m : Uuid} {data : ServiceOrderChanges}
    {r₀ r₁ : OrderRow} {R : List Write → Db → Db → Prop} {c : ShopCommit} {orderId : IdText}
    (h : Performed R G reaction o m data r₀ r₁ c.tx c.before) (ho : orderId.column? = some o)
    (hres : c.result.handled = some .applied) (j : Uuid) :
    reactionUnits (some reaction) c orderId j = reaction.reserved * lineUnits r₀.items j := by
  rw [reactionUnits, if_pos hres]
  simp only [orderUnits, ho, h.commit.found, Option.map_some, Option.getD_some]

/-- A message handled moves the counters by its own amount. -/
theorem Processed.stockMove {R : List Write → Db → Db → Prop} {messageId orderId : IdText}
    {expected : ServiceOrderSaga.Expected} {Effect : Uuid → Uuid → ShopTx → Db → Prop}
    {res : SagaReplyResult} {i : ℕ}
    (h : Processed R messageId orderId expected Effect res.outcome tx db)
    (reaction : Option Reaction)
    (hamount : ∀ j, amount ⟨i, op, .saga res, tx, db⟩ j
      = reactionUnits reaction ⟨i, op, .saga res, tx, db⟩ orderId j)
    (hop : ∀ osId itemId, op ≠ .removeItemFromOS osId itemId)
    (heffect : ∀ m o, Effect m o tx db → (reaction = none ∧ OnlyRecorded m tx) ∨
      ∃ r data r₀ r₁, reaction = some r ∧ Performed R G r o m data r₀ r₁ tx db) :
    StockMove ⟨i, op, .saga res, tx, db⟩ := by
  have hhandled : Outcome.handled (.saga res) = some res.outcome := rfl
  generalize hout : res.outcome = outcome at h hhandled
  -- what is not applied has no amount and writes no item
  have hstill : ∀ (hnone : ∀ j, lastItem tx.writes j = none)
      (hzero : ∀ j, reactionUnits reaction ⟨i, op, .saga res, tx, db⟩ orderId j = 0),
      StockMove ⟨i, op, .saga res, tx, db⟩ := by
    intro hnone hzero
    exact (Shift.none hnone db).stockMove (fun j => (hamount j).trans (hzero j)) hop
  cases h with
  | duplicate m hm _ hw _ =>
      refine hstill (fun j => by rw [hw]; rfl) fun j => ?_
      rw [reactionUnits, if_neg]
      intro hres
      have heq : Outcome.handled (.saga res) = some .applied := hres
      rw [hhandled] at heq
      cases heq
  | ignored m hm _ honly _ =>
      refine hstill honly.items fun j => ?_
      rw [reactionUnits, if_neg]
      intro hres
      have heq : Outcome.handled (.saga res) = some .applied := hres
      rw [hhandled] at heq
      cases heq
  | applied m o hm _ ho _ heff =>
      rcases heffect m o heff with ⟨hnone, honly⟩ | ⟨r, data, r₀, r₁, hsome, hperf⟩
      · refine hstill honly.items fun j => ?_
        rw [reactionUnits, hnone, if_pos hhandled]
        exact zero_mul _
      · refine hperf.shift.stockMove (fun j => ?_) hop
        rw [hamount j, hsome]
        exact Performed.units (c := ⟨i, op, .saga res, tx, db⟩) hperf ho hhandled j

/-- Every operation that moves stock is exact, but for a stale removal. -/
theorem Committed.stockMove {i : ℕ} (h : Committed StockRely G op result tx db)
    (hop : op.movesStock = true) : StockMove ⟨i, op, result, tx, db⟩ := by
  cases op with
  | createServiceOrder input traceparent =>
      rcases h with ⟨o, row, message, hopen⟩
      refine hopen.shift.stockMove (fun j => ?_) (by simp)
      exact (lineUnits_of_columns hopen.items j).symm
  | addItemToOS osId itemId quantity =>
      rcases h with ⟨o, k, ids, lines, r₀, r₁, ws, -, hadd⟩
      refine hadd.shift.stockMove (fun j => ?_) (by simp)
      simp only [amount, hadd.item, Option.some.injEq, unitsAt, eq_comm]
  | removeItemFromOS osId itemId =>
      rcases h with ⟨o, line, ids, lines, r₀, r₁, ws, ho, hrem⟩
      exact hrem.stockMove ho
  | handle reply traceparent =>
      rcases h with ⟨res, rfl, hproc⟩
      refine hproc.stockMove (G := G) (replyReaction reply.type) (fun _ => rfl) (by simp)
        fun m o heff => ?_
      unfold ReplyApplied at heff
      cases hreaction : replyReaction reply.type with
      | none =>
          rw [hreaction] at heff
          exact Or.inl ⟨rfl, heff⟩
      | some reaction =>
          rw [hreaction] at heff
          rcases heff with ⟨data, r₀, r₁, hperf, -⟩
          exact Or.inr ⟨reaction, data, r₀, r₁, rfl, hperf⟩
  | handleFailedCommand command traceparent =>
      rcases h with ⟨res, rfl, hproc⟩
      refine hproc.stockMove (G := G) (failedCommandReaction command.type) (fun _ => rfl) (by simp)
        fun m o heff => ?_
      unfold FailureApplied at heff
      cases hreaction : failedCommandReaction command.type with
      | none =>
          rw [hreaction] at heff
          exact Or.inl ⟨rfl, heff⟩
      | some reaction =>
          rw [hreaction] at heff
          rcases heff with ⟨data, r₀, r₁, hperf, -⟩
          exact Or.inr ⟨reaction, data, r₀, r₁, rfl, hperf⟩
  | _ => cases hop

end Operations

/-! ## Every run -/

/-- The runs of the operations that move stock. -/
def stockGuard : ShopGuard where
  launch op := op.movesStock
  stmt _ _ _ _ := true

/-- Those operations meet the rely–guarantee rule with the stronger rely. -/
theorem stock_relyGuarantee :
    RelyGuarantee postgres program stockGuard StockRely
      (fun op a tx db => op.movesStock = true ∧
        Committed StockRely (fun tx q v => stockGuard.stmt op tx q v = true) op a tx db) where
  conflicts_comm := Write.conflicts_comm
  refl := shopInterference_stock.refl
  trans := shopInterference_stock.trans
  launch op hop db :=
    (program_ensures shopInterference_stock op db).post fun _ _ _ h => ⟨hop, h⟩
  commit op a tx db ws hQ hclear := by
    refine ⟨rely_of_commit hQ.2.advances hclear, ?_⟩
    exact (hQ.2.stockMove (i := 0) hQ.1).catalogue

/-- What holds of the committed tables and the commits so far. -/
structure CounterInvariant (start db : Db) (log : List ShopCommit) : Prop where
  catalogue : ∀ i, (db.items.find? i).isSome = (start.items.find? i).isSome
  moves : ∀ c ∈ log, MovesExactly c ↔ ¬ StaleRemoval c
  total : (∀ c ∈ log, MovesExactly c) → ∀ i row row', start.items.find? i = some row →
    db.items.find? i = some row' →
      row'.reservedQuantity = row.reservedQuantity + (log.map fun c => amount c i).sum

theorem CounterInvariant.start (db : Db) : CounterInvariant db db [] where
  catalogue _ := rfl
  moves := by
    intro c hc
    cases hc
  total := by
    intro _ i row row' hrow hrow'
    rw [hrow, Option.some.injEq] at hrow'
    rw [hrow']
    exact (add_zero _).symm

theorem CounterInvariant.commit {start db : Db} {log : List ShopCommit} {i : ℕ} {op : Op}
    {result : Outcome} {tx : ShopTx} (h : CounterInvariant start db log)
    (hmove : StockMove ⟨i, op, result, tx, db⟩) :
    CounterInvariant start (postgres.applyAll db tx.writes) (log ++ [⟨i, op, result, tx, db⟩]) := by
  constructor
  · intro j
    exact (hmove.catalogue j).trans (h.catalogue j)
  · intro c hc
    rcases List.mem_append.mp hc with hc | hc
    · exact h.moves c hc
    · rw [List.mem_singleton.mp hc]
      exact hmove.exact_iff
  · intro hall j row row' hrow hrow'
    have hsome : ∃ mid, db.items.find? j = some mid := by
      rw [← Option.isSome_iff_exists, h.catalogue j, hrow]
      rfl
    rcases hsome with ⟨mid, hmid⟩
    have hbefore := h.total (fun c hc => hall c (List.mem_append_left _ hc)) j row mid hrow hmid
    have hlast := hall _ (List.mem_append_right _ (List.mem_singleton_self _)) j mid row' hmid hrow'
    rw [List.map_append, List.sum_append, List.map_singleton, List.sum_singleton, hlast, hbefore]
    omega

/-- For any interleaving of the operations that move stock, from any tables:
every commit changes the reserved units of each item by exactly its own amount
if and only if no commit is a stale removal; and then each counter is its
initial value plus the sum of the amounts. -/
theorem counters_move_exactly_iff {db : Db} {nextId : ℕ} {s : ShopSys}
    (h : ShopReachable stockGuard (.start db nextId) s) :
    ((∀ c ∈ s.log, MovesExactly c) ↔ ∀ c ∈ s.log, ¬ StaleRemoval c) ∧
    ((∀ c ∈ s.log, ¬ StaleRemoval c) → ∀ i row, db.items.find? i = some row →
      ∃ row', s.db.items.find? i = some row' ∧
        row'.reservedQuantity = row.reservedQuantity + (s.log.map fun c => amount c i).sum) := by
  have hinv : CounterInvariant db s.db s.log := by
    refine h.log_induction stock_relyGuarantee rfl (.start db) ?_
    intro db' log i op result tx hinv _ hQ
    exact hinv.commit (hQ.2.stockMove hQ.1)
  have hiff : (∀ c ∈ s.log, MovesExactly c) ↔ ∀ c ∈ s.log, ¬ StaleRemoval c := by
    constructor
    · intro hall c hc
      exact (hinv.moves c hc).mp (hall c hc)
    · intro hall c hc
      exact (hinv.moves c hc).mpr (hall c hc)
  refine ⟨hiff, ?_⟩
  intro hfresh i row hrow
  have hsome : ∃ row', s.db.items.find? i = some row' := by
    rw [← Option.isSome_iff_exists, hinv.catalogue i, hrow]
    rfl
  rcases hsome with ⟨row', hrow'⟩
  exact ⟨row', hrow', hinv.total (hiff.mpr hfresh) i row row' hrow hrow'⟩

/-- Two orders in `DIAGNOSIS` on one item: order 4 with two of its ten units,
order 6 with three. -/
def sharedItem : World :=
  World.performAll {} [
    (0, .createCustomer ⟨"Ana", "529.982.247-25", .cpf, "ana@mail", "11987654321"⟩),
    (0, .createVehicle ⟨Uuid.text 0, "ABC-1234", "VW", "Gol", 2020⟩),
    (0, .createItem "Oil" 30 10),
    (0, .createService "Oil change" 80 30),
    (0, .createServiceOrder ⟨Uuid.text 0, Uuid.text 1, [Uuid.text 3], [⟨Uuid.text 2, 2⟩]⟩ none),
    (0, .createServiceOrder ⟨Uuid.text 0, Uuid.text 1, [Uuid.text 3], [⟨Uuid.text 2, 3⟩]⟩ none),
    (0, .handle ⟨Uuid.text 100, .diagnosisStarted, Uuid.text 4, []⟩ none),
    (0, .handle ⟨Uuid.text 101, .diagnosisStarted, Uuid.text 6, []⟩ none)]

/-- The line of order 4 is removed in fourteen moves, and one unit reserved for
order 6 after the first `k` of them. -/
def removalAround (k : ℕ) : List (Label Op) :=
  Label.session 0 (.removeItemFromOS (Uuid.text 4) (Uuid.text 2)) k ++
    Label.session 1 (.addItemToOS (Uuid.text 6) (Uuid.text 2) 1) 13 ++
    List.replicate (14 - k) (.advance 0)

/-- The unit is reserved between the reading of the counter and its writing:
the removal takes the counter from 6 to 3, for a line of two units. -/
theorem overtaken_removal_loses_unit : ∃ s,
    (ShopSys.start sharedItem.db sharedItem.nextId).play postgres program stockGuard
      (removalAround 4) = some s ∧ ¬ ∀ c ∈ s.log, MovesExactly c := by
  have hplay : (((ShopSys.start sharedItem.db sharedItem.nextId).play postgres program stockGuard
      (removalAround 4)).bind fun s => s.log.getLast?.map fun c =>
        ((c.before.items.find? 2).map (·.reservedQuantity),
          ((c.after postgres).items.find? 2).map (·.reservedQuantity), amount c 2))
      = some (some 6, some 3, -2) := by
    decide +kernel
  rcases Option.bind_eq_some_iff.mp hplay with ⟨s, hs, hlast⟩
  rcases Option.map_eq_some_iff.mp hlast with ⟨c, hc, hfacts⟩
  simp only [Prod.mk.injEq] at hfacts
  rcases hfacts with ⟨hbefore, hafter, hamount⟩
  rcases Option.map_eq_some_iff.mp hbefore with ⟨row, hrow, hreserved⟩
  rcases Option.map_eq_some_iff.mp hafter with ⟨row', hrow', hreserved'⟩
  refine ⟨s, hs, ?_⟩
  intro hall
  have hmoved := hall c (List.mem_of_getLast? hc) 2 row row' hrow hrow'
  rw [hreserved, hreserved', hamount] at hmoved
  omega

/-- The unit is reserved before the removal reads the counter: six units less
two are left. -/
theorem late_removal_moves_exactly : ∃ s,
    (ShopSys.start sharedItem.db sharedItem.nextId).play postgres program stockGuard
      (removalAround 3) = some s ∧
    (s.db.items.find? 2).map (·.reservedQuantity) = some 4 ∧
    ((∀ c ∈ s.log, MovesExactly c) ↔ ∀ c ∈ s.log, ¬ StaleRemoval c) ∧
    ((∀ c ∈ s.log, ¬ StaleRemoval c) → ∀ i row, sharedItem.db.items.find? i = some row →
      ∃ row', s.db.items.find? i = some row' ∧
        row'.reservedQuantity = row.reservedQuantity + (s.log.map fun c => amount c i).sum) := by
  have hplay : ((ShopSys.start sharedItem.db sharedItem.nextId).play postgres program stockGuard
      (removalAround 3)).map (fun s => (s.db.items.find? 2).map (·.reservedQuantity))
        = some (some 4) := by
    decide +kernel
  rcases Option.map_eq_some_iff.mp hplay with ⟨s, hs, hreserved⟩
  exact ⟨s, hs, hreserved, counters_move_exactly_iff (reachable_of_play .init hs)⟩

end CarRepairShop
