import CarRepairShop.Writes

/-! # What the repositories guarantee among others

The rely–guarantee specifications of the repository functions, for any
interference `R` that respects `Rely` and any assumption `G` on the steps.
Each says what a function wrote and what it claimed (`Continues`), what it read
and when (`Was`), and what is true of the committed tables once it is done.
-/

namespace CarRepairShop

open Lib Txn Prog

/-- An interference the units of work of the service can live with. -/
structure ShopInterference (R : List Write → Db → Db → Prop) : Prop extends Interference R where
  rely : ∀ ws a b, R ws a b → Rely ws a b

theorem shopInterference_rely : ShopInterference Rely where
  toInterference := interference_rely
  rely _ _ _ h := h

/-- A unit of work alone. -/
theorem shopInterference_alone : ShopInterference (fun _ a b => a = b) where
  toInterference := Interference.alone
  rely := by
    rintro ws a b rfl
    exact Rely.refl ws a

/-! ## What a trace shows -/

/-- A statement with its answer. -/
abbrev Answered := Σ s : Stmt, s.Resp

/-- A claim of an order's version, and the count of rows it claimed. -/
structure VersionClaim where
  order : Uuid
  expected : Option ℕ
  count : ℕ
deriving DecidableEq, Repr

def Answered.claim? : Answered → Option VersionClaim
  | ⟨.claimVersion id expectedVersion, count⟩ => some ⟨id, expectedVersion, count⟩
  | _ => none

/-- The claims of a trace. -/
def claims (trace : List Answered) : List VersionClaim := trace.filterMap Answered.claim?

@[simp] theorem claims_append (t t' : List Answered) : claims (t ++ t') = claims t ++ claims t' :=
  List.filterMap_append

def Answered.itemLines? (o : Uuid) : Answered → Option (List ItemLine)
  | ⟨.findItemLines id, lines⟩ => if id = o then some lines else none
  | _ => none

def Answered.serviceLines? (o : Uuid) : Answered → Option (List Uuid)
  | ⟨.findServiceLines id, lines⟩ => if id = o then some lines else none
  | _ => none

def Answered.itemRow? (i : Uuid) : Answered → Option (Option ItemRow)
  | ⟨.findItem id, row⟩ => if id = i then some row else none
  | _ => none

/-- The item lines of order `o` that were read first. -/
def itemLinesRead (o : Uuid) (trace : List Answered) : Option (List ItemLine) :=
  trace.findSome? (Answered.itemLines? o)

/-- The service lines of order `o` that were read first. -/
def serviceLinesRead (o : Uuid) (trace : List Answered) : Option (List Uuid) :=
  trace.findSome? (Answered.serviceLines? o)

/-- The row of item `i` that was read first. -/
def itemRowRead (i : Uuid) (trace : List Answered) : Option (Option ItemRow) :=
  trace.findSome? (Answered.itemRow? i)

theorem itemLinesRead_append (o : Uuid) (t t' : List Answered) :
    itemLinesRead o (t ++ t') = (itemLinesRead o t).or (itemLinesRead o t') :=
  List.findSome?_append

theorem serviceLinesRead_append (o : Uuid) (t t' : List Answered) :
    serviceLinesRead o (t ++ t') = (serviceLinesRead o t).or (serviceLinesRead o t') :=
  List.findSome?_append

theorem itemRowRead_append (i : Uuid) (t t' : List Answered) :
    itemRowRead i (t ++ t') = (itemRowRead i t).or (itemRowRead i t') :=
  List.findSome?_append

/-- `tx'` continues `tx`: since then it wrote `ws` and made the claims `cs`. -/
structure Continues (tx tx' : ShopTx) (ws : List Write) (cs : List VersionClaim) : Prop where
  writes : tx'.writes = tx.writes ++ ws
  trace : ∃ t, tx'.trace = tx.trace ++ t ∧ claims t = cs

theorem Continues.refl (tx : ShopTx) : Continues tx tx [] [] where
  writes := by simp
  trace := ⟨[], by simp, rfl⟩

theorem Continues.trans {tx tx' tx'' : ShopTx} {ws ws' : List Write} {cs cs' : List VersionClaim}
    (h : Continues tx tx' ws cs) (h' : Continues tx' tx'' ws' cs') :
    Continues tx tx'' (ws ++ ws') (cs ++ cs') where
  writes := by rw [h'.writes, h.writes, List.append_assoc]
  trace := by
    rcases h.trace with ⟨t, ht, hcs⟩
    rcases h'.trace with ⟨t', ht', hcs'⟩
    refine ⟨t ++ t', ?_, ?_⟩
    · rw [ht', ht, List.append_assoc]
    · rw [claims_append, hcs, hcs']

/-- One more statement that claims no version. -/
theorem Continues.record {tx tx' : ShopTx} {ws ws' : List Write} {cs : List VersionClaim}
    {s : Stmt} {r : s.Resp} (h : Continues tx tx' ws cs) (hs : Answered.claim? ⟨s, r⟩ = none) :
    Continues tx (tx'.record s r ws') (ws ++ ws') cs where
  writes := by rw [Tx.record_writes, h.writes, List.append_assoc]
  trace := by
    rcases h.trace with ⟨t, ht, hcs⟩
    refine ⟨t ++ [⟨s, r⟩], ?_, ?_⟩
    · rw [Tx.record_trace, ht, List.append_assoc]
    · rw [claims_append, hcs]
      simp [claims, hs]

/-- One more statement that claims no version and writes nothing. -/
theorem Continues.read {tx tx' : ShopTx} {ws : List Write} {cs : List VersionClaim}
    {s : Stmt} {r : s.Resp} (h : Continues tx tx' ws cs) (hs : Answered.claim? ⟨s, r⟩ = none) :
    Continues tx (tx'.record s r []) ws cs := by
  have h' : Continues tx (tx'.record s r []) (ws ++ []) cs := h.record hs
  rwa [List.append_nil] at h'

/-- What was read first stays so. -/
theorem Continues.itemLinesRead {tx tx' : ShopTx} {ws : List Write} {cs : List VersionClaim}
    (h : Continues tx tx' ws cs) {o : Uuid} {lines : List ItemLine}
    (hr : itemLinesRead o tx.trace = some lines) : itemLinesRead o tx'.trace = some lines := by
  rcases h.trace with ⟨t, ht, -⟩
  rw [ht, itemLinesRead_append, hr]
  rfl

theorem Continues.serviceLinesRead {tx tx' : ShopTx} {ws : List Write} {cs : List VersionClaim}
    (h : Continues tx tx' ws cs) {o : Uuid} {lines : List Uuid}
    (hr : serviceLinesRead o tx.trace = some lines) : serviceLinesRead o tx'.trace = some lines := by
  rcases h.trace with ⟨t, ht, -⟩
  rw [ht, serviceLinesRead_append, hr]
  rfl

theorem Continues.itemRowRead {tx tx' : ShopTx} {ws : List Write} {cs : List VersionClaim}
    (h : Continues tx tx' ws cs) {i : Uuid} {row : Option ItemRow}
    (hr : itemRowRead i tx.trace = some row) : itemRowRead i tx'.trace = some row := by
  rcases h.trace with ⟨t, ht, -⟩
  rw [ht, itemRowRead_append, hr]
  rfl

/-- The rule for a statement followed by the rest of the unit of work. -/
theorem ensures_sql {R : List Write → Db → Db → Prop} {G : ShopTx → Stmt → Db → Prop}
    {α : Type} {Q : α → ShopTx → Db → Prop} {s : Stmt} {k : s.Resp → Work α} {tx : ShopTx}
    {db : Db} :
    (sql s >>= k).Ensures postgres R G Q tx db ↔
      ∀ db', R tx.writes db db' → G tx s (postgres.view tx db') →
        ∀ r ws, exec s (postgres.view tx db') = .ok (r, ws) →
          (k r).Ensures postgres R G Q (tx.record s r ws) db' :=
  Iff.rfl

section Specs

variable {R : List Write → Db → Db → Prop} {G : ShopTx → Stmt → Db → Prop}

/-! ## Reading an order -/

/-- The entity a stored order reads as. -/
def OrderRow.entity (r : OrderRow) : ServiceOrder := r.toOrderColumns.toEntity r.services r.items

/-- Order `o` was read as `order`: the stored row has not gone back since, and
while it has the version that was read it is the row that was read. -/
def Seen (o : Uuid) (order : ServiceOrder) (db : Db) : Prop :=
  ∃ r, db.orders.find? o = some r ∧ order.version ≤ r.version ∧
    (r.version = order.version → r.entity = order)

theorem Seen.stable {o : Uuid} {order : ServiceOrder} {ws : List Write} {a b : Db}
    (h : Seen o order a) (hrely : Rely ws a b) : Seen o order b := by
  rcases h with ⟨r, hr, hle, heq⟩
  rcases hrely.orderStays o r hr with ⟨r', hr', hle', heq'⟩
  refine ⟨r', hr', by omega, fun hv => ?_⟩
  have hv' : r.version = order.version := by omega
  -- the same version means that nobody has written the row since
  rw [heq' (by omega)]
  exact heq hv'

/-- A row found stays found. -/
theorem found_stable {o : Uuid} {ws : List Write} {a b : Db} (h : ∃ r, a.orders.find? o = some r)
    (hrely : Rely ws a b) : ∃ r, b.orders.find? o = some r := by
  rcases h with ⟨r, hr⟩
  rcases hrely.orderStays o r hr with ⟨r', hr', -⟩
  exact ⟨r', hr'⟩

/-- What reading order `o` as `order`, between `tx` and `tx'`, comes to. The
row, its service lines and its item lines are read by three statements, so
each was true at a moment of its own. -/
structure Found (R : List Write → Db → Db → Prop) (o : Uuid) (order : ServiceOrder)
    (tx tx' : ShopTx) (db : Db) : Prop where
  id : order.id = o.text
  seen : Seen o order db
  status : Was R (fun d => ∃ r, d.orders.find? o = some r ∧ r.status = order.status) db
  services : ∃ ss : List Uuid, order.services = ss.map (fun s => ⟨s.text⟩) ∧
    Was R (fun d => ∃ r, d.orders.find? o = some r ∧ r.services = ss) db ∧
    serviceLinesRead o tx'.trace = (serviceLinesRead o tx.trace).or (some ss)
  items : ∃ ls : List ItemLine, order.items = ls.map (fun l => ⟨l.itemId.text, l.quantity⟩) ∧
    Was R (fun d => ∃ r, d.orders.find? o = some r ∧ r.items = ls) db ∧
    itemLinesRead o tx'.trace = (itemLinesRead o tx.trace).or (some ls)
  itemRows : ∀ i, itemRowRead i tx'.trace = itemRowRead i tx.trace

/-- A transaction that wrote no order sees the committed ones. -/
theorem view_orders {tx : ShopTx} (hno : ∀ o, lastOrder tx.writes o = none) (db : Db) (o : Uuid) :
    (postgres.view tx db).orders.find? o = db.orders.find? o := by
  rw [Engine.view, applyAll_orders, hno o]
  rfl

theorem ServiceOrderRepository.findById_ensures (hR : ShopInterference R) (id : IdText)
    {tx : ShopTx} {db : Db} (hno : ∀ o, lastOrder tx.writes o = none) :
    (ServiceOrderRepository.findById id).Ensures postgres R G
      (fun found tx' db' => Continues tx tx' [] [] ∧
        match found with
        | none => ∀ o, id.column? = some o → Was R (fun d => d.orders.find? o = none) db'
        | some order => ∃ o, id.column? = some o ∧ Found R o order tx tx' db') tx db := by
  unfold ServiceOrderRepository.findById
  cases hid : id.column? with
  | none =>
      -- a malformed id names no row, so there is nothing to say
      intro db' hR'
      refine ⟨Continues.refl tx, ?_⟩
      intro o ho
      cases ho
  | some o =>
      refine ensures_sql.mpr fun d₀ h₀ _ r ws he => ?_
      simp only [exec, Except.ok.injEq, Prod.mk.injEq] at he
      rcases he with ⟨rfl, rfl⟩
      rw [view_orders hno]
      cases hrow : d₀.orders.find? o with
      | none =>
          intro db' hR'
          refine ⟨(Continues.refl tx).read rfl, ?_⟩
          intro o' ho'
          cases ho'
          have hnow : Was R (fun d => d.orders.find? o = none) d₀ :=
            Was.now hR.toInterference hrow
          exact hnow.stable hR.toInterference hR'
      | some r =>
          have hkey : r.id = o := order_id hrow
          -- the lines are read by two more statements, each at a later moment
          show (ServiceOrderRepository.includeRelations r.toOrderColumns >>=
            fun order => Prog.pure (some order)).Ensures _ _ _ _ _ _
          unfold ServiceOrderRepository.includeRelations
          refine ensures_sql.mpr fun d₁ h₁ _ ss ws he => ?_
          simp only [exec, Except.ok.injEq, Prod.mk.injEq] at he
          rcases he with ⟨rfl, rfl⟩
          refine ensures_sql.mpr fun d₂ h₂ _ ls ws he => ?_
          simp only [exec, Except.ok.injEq, Prod.mk.injEq] at he
          rcases he with ⟨rfl, rfl⟩
          intro db' h₃
          simp only [Tx.record_writes, List.append_nil, Option.map_some] at h₁ h₂ h₃
          have hview : ∀ (t : ShopTx), t.writes = tx.writes → ∀ d : Db,
              (postgres.view t d).orders.find? o = d.orders.find? o := by
            intro t ht d
            rw [Engine.view, ht]
            exact view_orders hno d o
          simp only [hkey]
          rw [hview _ (by simp), hview _ (by simp)]
          -- follow the row through the three waits, its version never going back
          rcases (hR.rely _ _ _ h₁).orderStays o r hrow with ⟨r₁, hr₁, hle₁, heq₁⟩
          rcases (hR.rely _ _ _ h₂).orderStays o r₁ hr₁ with ⟨r₂, hr₂, hle₂, heq₂⟩
          rcases (hR.rely _ _ _ h₃).orderStays o r₂ hr₂ with ⟨r₃, hr₃, hle₃, heq₃⟩
          rw [hr₁, hr₂]
          refine ⟨(((Continues.refl tx).read rfl).read rfl).read rfl, o, rfl, ?_⟩
          -- what each read returned was true when it was made
          have was₀ : Was R (fun d => ∃ x, d.orders.find? o = some x ∧ x.status = r.status) d₀ :=
            Was.now hR.toInterference ⟨r, hrow, rfl⟩
          have was₁ : Was R (fun d => ∃ x, d.orders.find? o = some x ∧ x.services = r₁.services)
              d₁ := Was.now hR.toInterference ⟨r₁, hr₁, rfl⟩
          have was₂ : Was R (fun d => ∃ x, d.orders.find? o = some x ∧ x.items = r₂.items) d₂ :=
            Was.now hR.toInterference ⟨r₂, hr₂, rfl⟩
          constructor
          · simp [OrderColumns.toEntity, hkey]
          · refine ⟨r₃, hr₃, ?_, ?_⟩
            · show r.version ≤ r₃.version
              omega
            · intro hv
              change r₃.version = r.version at hv
              -- the version did not move, so all three reads saw one row
              have e₁ : r₁ = r := heq₁ (by omega)
              have e₂ : r₂ = r₁ := heq₂ (by omega)
              have e₃ : r₃ = r₂ := heq₃ (by omega)
              subst e₁ e₂ e₃
              rfl
          · exact ((was₀.stable hR.toInterference h₁).stable hR.toInterference h₂).stable
              hR.toInterference h₃
          · refine ⟨r₁.services, rfl, ?_, ?_⟩
            · exact (was₁.stable hR.toInterference h₂).stable hR.toInterference h₃
            · rw [Tx.record_trace, Tx.record_trace, Tx.record_trace, List.append_assoc,
                List.append_assoc, serviceLinesRead_append]
              congr 1
              simp [serviceLinesRead, Answered.serviceLines?, List.findSome?_cons, hkey]
          · refine ⟨r₂.items, rfl, was₂.stable hR.toInterference h₃, ?_⟩
            rw [Tx.record_trace, Tx.record_trace, Tx.record_trace, List.append_assoc,
              List.append_assoc, itemLinesRead_append]
            congr 1
            simp [itemLinesRead, Answered.itemLines?, List.findSome?_cons, hkey]
          · intro i
            rw [Tx.record_trace, Tx.record_trace, Tx.record_trace, List.append_assoc,
              List.append_assoc, itemRowRead_append]
            simp [itemRowRead, Answered.itemRow?, List.findSome?_cons]

/-! ## Writing an order -/

/-- The first part of a computation that did not fail. -/
theorem bind_ok {ε α β : Type} {x : Except ε α} {f : α → Except ε β} {b : β}
    (h : x >>= f = .ok b) : ∃ a, x = .ok a ∧ f a = .ok b := by
  cases x with
  | error failure => cases h
  | ok a => exact ⟨a, rfl, h⟩

theorem map_ok {ε α β : Type} {x : Except ε α} {f : α → β} {b : β}
    (h : x.map f = .ok b) : ∃ a, x = .ok a ∧ f a = b := by
  cases x with
  | error failure => cases h
  | ok a => exact ⟨a, rfl, Except.ok.inj h⟩

/-- The columns of service lines that were stored. -/
theorem serviceColumns_ok {db : Db} {lines : List OSService} {ids : List Uuid}
    (h : serviceColumns db lines = .ok ids) :
    ids.map some = lines.map (·.serviceId.stored?) ∧
      ∀ s ∈ ids, (db.services.find? s).isSome = true := by
  induction lines generalizing ids with
  | nil =>
      cases h
      exact ⟨rfl, by simp⟩
  | cons line lines ih =>
      rw [serviceColumns] at h
      cases hcol : line.serviceId.stored? with
      | none => simp [hcol] at h
      | some s =>
          simp only [hcol] at h
          split at h
          · cases h
          · next hs =>
            rcases map_ok h with ⟨rest, hrest, rfl⟩
            rcases ih hrest with ⟨hmap, hall⟩
            refine ⟨by simp [hcol, hmap], ?_⟩
            intro s' hs'
            rcases List.mem_cons.mp hs' with rfl | hs'
            · cases hf : db.services.find? s' with
              | none => simp [hf] at hs
              | some row => rfl
            · exact hall s' hs'

/-- The columns of item lines that were stored. -/
theorem itemColumns_ok {db : Db} {lines : List OSItem} {new : List ItemLine}
    (h : itemColumns db lines = .ok new) :
    new.map (fun l => (some l.itemId, l.quantity)) =
        lines.map (fun l => (l.itemId.stored?, l.quantity)) ∧
      ∀ l ∈ new, (db.items.find? l.itemId).isSome = true := by
  induction lines generalizing new with
  | nil =>
      cases h
      exact ⟨rfl, by simp⟩
  | cons line lines ih =>
      rw [itemColumns] at h
      cases hcol : line.itemId.stored? with
      | none => simp [hcol] at h
      | some i =>
          simp only [hcol] at h
          split at h
          · cases h
          · next hi =>
            rcases map_ok h with ⟨rest, hrest, rfl⟩
            rcases ih hrest with ⟨hmap, hall⟩
            refine ⟨by simp [hcol, hmap], ?_⟩
            intro l hl
            rcases List.mem_cons.mp hl with rfl | hl
            · cases hf : db.items.find? i with
              | none => simp [hf] at hi
              | some row => rfl
            · exact hall l hl

theorem storeOrder_ok {row : OrderRow} {ws : List Write} (h : storeOrder row = .ok ws) :
    ∃ hc : row.Checks, ws = [.putOrder row hc] := by
  unfold storeOrder at h
  split at h
  · next hc =>
    cases h
    exact ⟨hc, rfl⟩
  · cases h

/-- A statement that changes an order that is there. -/
theorem changeOrder_ok {α : Type} {db : Db} {o : Uuid} {missing : Except Failure (α × List Write)}
    {f : OrderRow → Except Failure (α × OrderRow)} {a : α} {ws : List Write} {row : OrderRow}
    (h : changeOrder db o missing f = .ok (a, ws)) (hrow : db.orders.find? o = some row) :
    ∃ row', ∃ hc : row'.Checks, f row = .ok (a, row') ∧ ws = [.putOrder row' hc] := by
  unfold changeOrder at h
  simp only [hrow] at h
  rcases bind_ok h with ⟨⟨answer, row'⟩, hf, hstore⟩
  rcases bind_ok hstore with ⟨ws', hs, heq⟩
  cases heq
  rcases storeOrder_ok hs with ⟨hc, rfl⟩
  exact ⟨row', hc, hf, rfl⟩

/-- Service lines created for an order are appended to those it has. -/
theorem createServiceLines_ok {db : Db} {o : Uuid} {lines : List OSService} {u : Unit}
    {ws : List Write} {row : OrderRow}
    (h : exec (.createServiceLines o lines) db = .ok (u, ws)) (hrow : db.orders.find? o = some row) :
    ∃ ids, ∃ hc : OrderRow.Checks { row with services := row.services ++ ids },
      ws = [.putOrder _ hc] ∧ ids.map some = lines.map (·.serviceId.stored?) ∧
      ∀ s ∈ ids, (db.services.find? s).isSome = true := by
  rcases changeOrder_ok h hrow with ⟨row', hc, hf, rfl⟩
  rcases bind_ok hf with ⟨ids, hcols, heq⟩
  cases heq
  exact ⟨ids, hc, rfl, serviceColumns_ok hcols⟩

/-- Item lines created for an order are appended to those it has. -/
theorem createItemLines_ok {db : Db} {o : Uuid} {lines : List OSItem} {u : Unit}
    {ws : List Write} {row : OrderRow}
    (h : exec (.createItemLines o lines) db = .ok (u, ws)) (hrow : db.orders.find? o = some row) :
    ∃ new, ∃ hc : OrderRow.Checks { row with items := row.items ++ new },
      ws = [.putOrder _ hc] ∧
      new.map (fun x => (some x.itemId, x.quantity)) =
        lines.map (fun x => (x.itemId.stored?, x.quantity)) ∧
      ∀ x ∈ new, (db.items.find? x.itemId).isSome = true := by
  rcases changeOrder_ok h hrow with ⟨row', hc, hf, rfl⟩
  rcases bind_ok hf with ⟨new, hcols, heq⟩
  cases heq
  exact ⟨new, hc, rfl, itemColumns_ok hcols⟩

/-- Since `tx₀`, order `o` was written and nothing else, and stands at `row`. -/
structure Rewrote (o : Uuid) (row : OrderRow) (tx₀ tx : ShopTx) (ws : List Write)
    (cs : List VersionClaim) : Prop where
  continues : Continues tx₀ tx ws cs
  writes : OrderWrites o row ws

section Rewrote

variable {o : Uuid} {row : OrderRow} {tx₀ tx : ShopTx} {ws : List Write} {cs : List VersionClaim}

theorem Rewrote.order (h : Rewrote o row tx₀ tx ws cs) (d : Db) :
    (postgres.view tx d).orders.find? o = some row := by
  rw [Engine.view, h.continues.writes, applyAll_orders, lastOrder, lastOf_append]
  rw [show lastOf (Write.order? o) ws = some row from h.writes.last]
  rfl

theorem Rewrote.service (h : Rewrote o row tx₀ tx ws cs) (d : Db) (s : Uuid) :
    (postgres.view tx d).services.find? s = (postgres.view tx₀ d).services.find? s := by
  rw [Engine.view, h.continues.writes, Engine.applyAll_append, applyAll_services]
  rw [h.writes.service s]
  rfl

theorem Rewrote.item (h : Rewrote o row tx₀ tx ws cs) (d : Db) (i : Uuid) :
    (postgres.view tx d).items.find? i = (postgres.view tx₀ d).items.find? i := by
  rw [Engine.view, h.continues.writes, Engine.applyAll_append, applyAll_items]
  rw [h.writes.item i]
  rfl

theorem Rewrote.id (h : Rewrote o row tx₀ tx ws cs) : row.id = o :=
  (checks_of_lastOrder h.writes.last).2

/-- Nobody else writes the order meanwhile. -/
theorem Rewrote.held (h : Rewrote o row tx₀ tx ws cs) (hR : ShopInterference R) {a b : Db}
    (hab : R tx.writes a b) : b.orders.find? o = a.orders.find? o := by
  refine (hR.rely _ _ _ hab).orderHeld o row ?_
  rw [h.continues.writes, lastOrder, lastOf_append]
  rw [show lastOf (Write.order? o) ws = some row from h.writes.last]
  rfl

/-- One more statement that writes the order. -/
theorem Rewrote.record (h : Rewrote o row tx₀ tx ws cs) {row' : OrderRow} (hc : row'.Checks)
    (hid : row'.id = row.id) {s : Stmt} {r : s.Resp} (hs : Answered.claim? ⟨s, r⟩ = none) :
    Rewrote o row' tx₀ (tx.record s r [.putOrder row' hc]) (ws ++ [.putOrder row' hc]) cs where
  continues := h.continues.record hs
  writes := h.writes.snoc hc (hid.trans h.id)

/-- One more statement that writes nothing. -/
theorem Rewrote.read (h : Rewrote o row tx₀ tx ws cs) {s : Stmt} {r : s.Resp}
    (hs : Answered.claim? ⟨s, r⟩ = none) : Rewrote o row tx₀ (tx.record s r []) ws cs where
  continues := h.continues.read hs
  writes := h.writes

end Rewrote

theorem ServiceOrderRepository.replaceServices_ensures (hR : ShopInterference R) {o : Uuid}
    {row : OrderRow} {tx₀ tx : ShopTx} {db : Db} {ws : List Write} {cs : List VersionClaim}
    (h : Rewrote o row tx₀ tx ws cs) (lines : Option (List OSService)) :
    (ServiceOrderRepository.replaceServices o lines).Ensures postgres R G
      (fun _ tx' db' => ∃ ws' ids, Rewrote o { row with services := ids } tx₀ tx' ws' cs ∧
        (lines = none → ids = row.services) ∧
        ∀ l, lines = some l → ids.map some = l.map (·.serviceId.stored?) ∧
          Was R (fun d => ∀ s ∈ ids, ((postgres.view tx₀ d).services.find? s).isSome = true) db')
      tx db := by
  cases lines with
  | none =>
      intro db' hR'
      refine ⟨ws, row.services, h, fun _ => rfl, ?_⟩
      intro l hl
      cases hl
  | some l =>
      unfold ServiceOrderRepository.replaceServices
      refine ensures_sql.mpr fun d₁ h₁ _ r ws₁ he => ?_
      rcases changeOrder_ok he (h.order d₁) with ⟨row₁, hc₁, hf₁, rfl⟩
      simp only [Except.ok.injEq, Prod.mk.injEq, true_and] at hf₁
      have hw₁ := h.record (s := .deleteServiceLines o) (r := r) hc₁ (by rw [← hf₁]) rfl
      refine ensures_sql.mpr fun d₂ h₂ _ r' ws₂ he => ?_
      rcases createServiceLines_ok he (hw₁.order d₂) with ⟨ids, hc₂, rfl, hmap, hall⟩
      have hw₂ := hw₁.record (s := .createServiceLines o l) (r := r') hc₂ rfl rfl
      subst hf₁
      intro db' h₃
      refine ⟨_, ids, hw₂, by simp, ?_⟩
      intro l' hl'
      cases hl'
      refine ⟨hmap, ?_⟩
      have hnow : Was R (fun d => ∀ s ∈ ids,
          ((postgres.view tx₀ d).services.find? s).isSome = true) d₂ := by
        apply Was.now hR.toInterference
        intro s hs
        rw [← hw₁.service d₂ s]
        exact hall s hs
      exact hnow.stable hR.toInterference h₃

theorem ServiceOrderRepository.replaceItems_ensures (hR : ShopInterference R) {o : Uuid}
    {row : OrderRow} {tx₀ tx : ShopTx} {db : Db} {ws : List Write} {cs : List VersionClaim}
    (h : Rewrote o row tx₀ tx ws cs) (lines : Option (List OSItem)) :
    (ServiceOrderRepository.replaceItems o lines).Ensures postgres R G
      (fun _ tx' db' => ∃ ws' new, Rewrote o { row with items := new } tx₀ tx' ws' cs ∧
        (lines = none → new = row.items) ∧
        ∀ l, lines = some l →
          new.map (fun x => (some x.itemId, x.quantity)) =
            l.map (fun x => (x.itemId.stored?, x.quantity)) ∧
          Was R (fun d => ∀ x ∈ new, ((postgres.view tx₀ d).items.find? x.itemId).isSome = true)
            db')
      tx db := by
  cases lines with
  | none =>
      intro db' hR'
      refine ⟨ws, row.items, h, fun _ => rfl, ?_⟩
      intro l hl
      cases hl
  | some l =>
      unfold ServiceOrderRepository.replaceItems
      refine ensures_sql.mpr fun d₁ h₁ _ r ws₁ he => ?_
      rcases changeOrder_ok he (h.order d₁) with ⟨row₁, hc₁, hf₁, rfl⟩
      simp only [Except.ok.injEq, Prod.mk.injEq, true_and] at hf₁
      have hw₁ := h.record (s := .deleteItemLines o) (r := r) hc₁ (by rw [← hf₁]) rfl
      refine ensures_sql.mpr fun d₂ h₂ _ r' ws₂ he => ?_
      rcases createItemLines_ok he (hw₁.order d₂) with ⟨new, hc₂, rfl, hmap, hall⟩
      have hw₂ := hw₁.record (s := .createItemLines o l) (r := r') hc₂ rfl rfl
      subst hf₁
      intro db' h₃
      refine ⟨_, new, hw₂, by simp, ?_⟩
      intro l' hl'
      cases hl'
      refine ⟨hmap, ?_⟩
      have hnow : Was R (fun d => ∀ x ∈ new,
          ((postgres.view tx₀ d).items.find? x.itemId).isSome = true) d₂ := by
        apply Was.now hR.toInterference
        intro x hx
        rw [← hw₁.item d₂ x.itemId]
        exact hall x hx
      exact hnow.stable hR.toInterference h₃

/-- The history rows an update adds. -/
def statusChange (previous : OSStatus) (status : Option OSStatus) (changedAt : ℕ) :
    List StatusChange :=
  match status with
  | none => []
  | some toStatus =>
      if toStatus = previous then [] else [{ fromStatus := some previous, toStatus, changedAt }]

theorem ServiceOrderRepository.recordChange_ensures {o : Uuid} {row : OrderRow}
    {tx₀ tx : ShopTx} {db : Db} {ws : List Write} {cs : List VersionClaim}
    (h : Rewrote o row tx₀ tx ws cs) (previous : OSStatus) (status : Option OSStatus) :
    (ServiceOrderRepository.recordChange o previous status).Ensures postgres R G
      (fun _ tx' _ => ∃ ws' t, Rewrote o
        { row with history := row.history ++ statusChange previous status t } tx₀ tx' ws' cs)
      tx db := by
  unfold ServiceOrderRepository.recordChange
  cases status with
  | none =>
      intro db' hR'
      refine ⟨ws, 0, ?_⟩
      simpa [statusChange] using h
  | some toStatus =>
      by_cases heq : toStatus = previous
      · simp only [heq, if_true]
        intro db' hR'
        refine ⟨ws, 0, ?_⟩
        simpa [statusChange] using h
      · simp only [heq, if_false]
        intro t
        refine ensures_sql.mpr fun d₁ h₁ _ r ws₁ he => ?_
        rcases changeOrder_ok he (h.order d₁) with ⟨row₁, hc₁, hf₁, rfl⟩
        simp only [Except.ok.injEq, Prod.mk.injEq, true_and] at hf₁
        have hw₁ := h.record (s := .insertHistory o _) (r := r) hc₁ (by rw [← hf₁]) rfl
        intro db' h₂
        have hchange : statusChange previous (some toStatus) t =
            [{ fromStatus := some previous, toStatus, changedAt := t }] := by
          simp [statusChange, heq]
        refine ⟨ws ++ [.putOrder row₁ hc₁], t, ?_⟩
        rw [hchange, hf₁]
        exact hw₁

/-- The row `r₁` is `r₀` after an update with `data`. -/
structure Revision (data : ServiceOrderChanges) (r₀ r₁ : OrderRow) : Prop where
  columns : r₁.toOrderColumns =
    (data.toOrderScalar.apply { r₀ with version := r₀.version + 1 }).toOrderColumns
  services : data.services = none → r₁.services = r₀.services
  newServices : ∀ l, data.services = some l →
    r₁.services.map some = l.map (·.serviceId.stored?)
  items : data.items = none → r₁.items = r₀.items
  newItems : ∀ l, data.items = some l →
    r₁.items.map (fun x => (some x.itemId, x.quantity)) =
      l.map (fun x => (x.itemId.stored?, x.quantity))
  history : ∃ t, r₁.history = r₀.history ++ statusChange r₀.status data.status t

theorem Revision.status {data : ServiceOrderChanges} {r₀ r₁ : OrderRow} (h : Revision data r₀ r₁) :
    r₁.status = data.status.getD r₀.status :=
  congrArg OrderColumns.status h.columns

/-- What an update that went through did, between `tx` and `tx'`: it claimed
the version of the stored row `r₀`, and left the row `r₁`. -/
structure Updated (R : List Write → Db → Db → Prop) (G : ShopTx → Stmt → Db → Prop) (o : Uuid)
    (data : ServiceOrderChanges) (expectedVersion : Option ℕ) (tx tx' : ShopTx) (db : Db)
    (r₀ r₁ : OrderRow) (ws : List Write) : Prop where
  found : db.orders.find? o = some r₀
  revision : Revision data r₀ r₁
  rewrote : Rewrote o r₁ tx tx' ws [⟨o, expectedVersion, 1⟩]
  expected : ∀ v, expectedVersion = some v → r₀.version = v
  claimed : Was R (fun d => d.orders.find? o = some r₀ ∧
    G tx (.claimVersion o expectedVersion) (postgres.view tx d)) db
  servicesThere : ∀ l, data.services = some l → Was R (fun d => ∀ s ∈ r₁.services,
    ((postgres.view tx d).services.find? s).isSome = true) db
  itemsThere : ∀ l, data.items = some l → Was R (fun d => ∀ x ∈ r₁.items,
    ((postgres.view tx d).items.find? x.itemId).isSome = true) db

/-- Reading the relations of an order that the transaction has written. -/
theorem ServiceOrderRepository.includeRelations_ensures {o : Uuid} {row : OrderRow}
    {tx₀ tx : ShopTx} {db : Db} {ws : List Write} {cs : List VersionClaim}
    (h : Rewrote o row tx₀ tx ws cs) (columns : OrderColumns) :
    (ServiceOrderRepository.includeRelations columns).Ensures postgres R G
      (fun order tx' _ => Rewrote o row tx₀ tx' ws cs ∧ order.id = columns.id.text ∧
        order.status = columns.status) tx db := by
  unfold ServiceOrderRepository.includeRelations
  refine ensures_sql.mpr fun d₁ h₁ _ r ws₁ he => ?_
  simp only [exec, Except.ok.injEq, Prod.mk.injEq] at he
  rcases he with ⟨rfl, rfl⟩
  refine ensures_sql.mpr fun d₂ h₂ _ r ws₂ he => ?_
  simp only [exec, Except.ok.injEq, Prod.mk.injEq] at he
  rcases he with ⟨rfl, rfl⟩
  intro db' h₃
  exact ⟨(h.read rfl).read rfl, rfl, rfl⟩

/-- The end of an update: the columns, and the history row. -/
theorem ServiceOrderRepository.setColumns_ensures (hR : ShopInterference R) {o : Uuid}
    {row : OrderRow} {tx₀ tx : ShopTx} {db : Db} {ws : List Write} {cs : List VersionClaim}
    (h : Rewrote o row tx₀ tx ws cs) (data : OrderScalar) (previous : OSStatus) :
    (sql (.updateOrder o data) >>= fun columns =>
        ServiceOrderRepository.includeRelations columns >>= fun order =>
          ServiceOrderRepository.recordChange o previous data.status >>= fun _ =>
            (Prog.pure (some order) : Work (Option ServiceOrder))).Ensures postgres R G
      (fun result tx' _ =>
        (∃ order, result = some order ∧ order.status = (data.apply row).status) ∧ ∃ ws' t, Rewrote o
          { data.apply row with history := row.history ++ statusChange previous data.status t }
          tx₀ tx' ws' cs) tx db := by
  refine ensures_sql.mpr fun d₁ h₁ _ columns ws₁ he => ?_
  -- the transaction has written the row already, so it reads its own
  rcases changeOrder_ok he (h.order d₁) with ⟨row₁, hc₁, hf₁, rfl⟩
  simp only [Except.ok.injEq, Prod.mk.injEq] at hf₁
  rcases hf₁ with ⟨rfl, rfl⟩
  have hw₁ := h.record (s := .updateOrder o data) (r := (data.apply row).toOrderColumns) hc₁ rfl rfl
  refine Ensures.seq hR.toInterference
    (ServiceOrderRepository.includeRelations_ensures hw₁ _) ?_
  rintro order tx₂ d₂ ⟨hw₂, -, hstatus⟩ -
  refine Ensures.seq hR.toInterference
    (ServiceOrderRepository.recordChange_ensures hw₂ previous data.status) ?_
  rintro - tx₃ d₃ ⟨ws₃, t, hw₃⟩ -
  intro db' _
  exact ⟨⟨order, rfl, hstatus⟩, ws₃, t, hw₃⟩

/-- Everything an update does once the version is claimed. -/
theorem ServiceOrderRepository.rewrite_ensures (hR : ShopInterference R) {o : Uuid}
    {row : OrderRow} {tx₀ tx : ShopTx} {db : Db} {ws : List Write} {cs : List VersionClaim}
    (h : Rewrote o row tx₀ tx ws cs) (data : ServiceOrderChanges) (previous : OSStatus) :
    (ServiceOrderRepository.replaceServices o data.services >>= fun _ =>
      ServiceOrderRepository.replaceItems o data.items >>= fun _ =>
        sql (.updateOrder o data.toOrderScalar) >>= fun columns =>
          ServiceOrderRepository.includeRelations columns >>= fun order =>
            ServiceOrderRepository.recordChange o previous data.status >>= fun _ =>
              (Prog.pure (some order) : Work (Option ServiceOrder))).Ensures postgres R G
      (fun result tx' db' =>
        (∃ order, result = some order ∧ order.status = (data.toOrderScalar.apply row).status) ∧
        ∃ ws' ids new t, Rewrote o { data.toOrderScalar.apply { row with services := ids, items := new } with
          history := row.history ++ statusChange previous data.status t } tx₀ tx' ws' cs ∧
        (data.services = none → ids = row.services) ∧
        (∀ l, data.services = some l → ids.map some = l.map (·.serviceId.stored?) ∧
          Was R (fun d => ∀ s ∈ ids, ((postgres.view tx₀ d).services.find? s).isSome = true) db') ∧
        (data.items = none → new = row.items) ∧
        ∀ l, data.items = some l →
          new.map (fun x => (some x.itemId, x.quantity)) =
            l.map (fun x => (x.itemId.stored?, x.quantity)) ∧
          Was R (fun d => ∀ x ∈ new, ((postgres.view tx₀ d).items.find? x.itemId).isSome = true)
            db') tx db := by
  refine Ensures.seq hR.toInterference
    (ServiceOrderRepository.replaceServices_ensures hR h data.services) ?_
  rintro - tx₁ d₁ ⟨ws₁, ids, hw₁, hsame₁, hnew₁⟩ -
  refine Ensures.seq hR.toInterference
    (ServiceOrderRepository.replaceItems_ensures hR hw₁ data.items) ?_
  rintro - tx₂ d₂ ⟨ws₂, new, hw₂, hsame₂, hnew₂⟩ h₂
  refine ((ServiceOrderRepository.setColumns_ensures hR hw₂ data.toOrderScalar
    previous).since hR.toInterference).post ?_
  rintro result tx' db' ⟨⟨hres, ws', t, hw'⟩, h'⟩
  refine ⟨hres, ws', ids, new, t, hw', hsame₁, ?_, hsame₂, ?_⟩
  · intro l hl
    rcases hnew₁ l hl with ⟨hmap, hwas⟩
    exact ⟨hmap, (hwas.stable hR.toInterference h₂).stable hR.toInterference h'⟩
  · intro l hl
    rcases hnew₂ l hl with ⟨hmap, hwas⟩
    exact ⟨hmap, hwas.stable hR.toInterference h'⟩

theorem ServiceOrderRepository.update_ensures (hR : ShopInterference R) {id : IdText} {o : Uuid}
    (hid : id.column? = some o) (data : ServiceOrderChanges) (expectedVersion : Option ℕ)
    {tx : ShopTx} {db : Db} (hno : ∀ o, lastOrder tx.writes o = none)
    (hthere : ∃ r, db.orders.find? o = some r) :
    (ServiceOrderRepository.update id data expectedVersion).Ensures postgres R G
      (fun result tx' db' => ∃ r₀ r₁ ws, Updated R G o data expectedVersion tx tx' db' r₀ r₁ ws ∧
        ∃ order, result = some order ∧ order.status = r₁.status) tx db := by
  unfold ServiceOrderRepository.update
  simp only [hid]
  refine ensures_sql.mpr fun d₁ h₁ hg₁ claimed ws₁ he => ?_
  rcases found_stable hthere (hR.rely _ _ _ h₁) with ⟨r₀, hr₀⟩
  simp only [exec, view_orders hno, hr₀] at he
  split at he
  · -- the claim goes through: the row is ours until the end
    next hcond =>
    rcases map_ok he with ⟨ws', hst, heq⟩
    cases heq
    rcases storeOrder_ok hst with ⟨hc, rfl⟩
    have hw₁ : Rewrote o { r₀ with version := r₀.version + 1 } tx
        (tx.record (.claimVersion o expectedVersion) 1 [.putOrder _ hc])
        [.putOrder _ hc] [⟨o, expectedVersion, 1⟩] := by
      refine ⟨⟨rfl, [⟨.claimVersion o expectedVersion, 1⟩], rfl, rfl⟩, ?_⟩
      have hid : r₀.id = o := order_id hr₀
      exact OrderWrites.one hc hid
    have hclaim : Was R (fun d => d.orders.find? o = some r₀ ∧
        G tx (.claimVersion o expectedVersion) (postgres.view tx d)) d₁ :=
      Was.now hR.toInterference ⟨hr₀, hg₁⟩
    simp only [Nat.one_ne_zero, if_false]
    refine ensures_sql.mpr fun d₂ h₂ _ previous ws₂ he => ?_
    simp only [exec, hw₁.order, Except.ok.injEq, Prod.mk.injEq] at he
    rcases he with ⟨rfl, rfl⟩
    have hw₂ := hw₁.read (s := .findStatusOrThrow o) (r := r₀.status) rfl
    refine ((ServiceOrderRepository.rewrite_ensures hR hw₂ data
      r₀.status).since hR.toInterference).post ?_
    rintro result tx' db' ⟨⟨hres, ws', ids, new, t, hw', hsame, hnew, hsame', hnew'⟩, h'⟩
    refine ⟨r₀, { data.toOrderScalar.apply
      { r₀ with version := r₀.version + 1, services := ids, items := new } with
      history := r₀.history ++ statusChange r₀.status data.status t }, ws', ?_, hres⟩
    constructor
    · rw [hw₂.held hR h', hw₁.held hR h₂, hr₀]
    · exact ⟨rfl, hsame, fun l hl => (hnew l hl).1, hsame', fun l hl => (hnew' l hl).1, t, rfl⟩
    · exact hw'
    · intro v hv
      -- with no expected version there is nothing to compare
      rcases hcond with hn | hs
      · rw [hn] at hv
        cases hv
      · rw [hs] at hv
        exact Option.some.inj hv
    · exact (hclaim.stable hR.toInterference h₂).stable hR.toInterference h'
    · exact fun l hl => (hnew l hl).2
    · exact fun l hl => (hnew' l hl).2
  · -- the claim is lost: the order is still there, so the update throws
    simp only [Except.ok.injEq, Prod.mk.injEq] at he
    rcases he with ⟨rfl, rfl⟩
    simp only [if_true]
    refine ensures_sql.mpr fun d₂ h₂ _ existing ws₂ he => ?_
    rcases found_stable ⟨r₀, hr₀⟩ (hR.rely _ _ _ h₂) with ⟨r₂, hr₂⟩
    have hview : (postgres.view (tx.record (.claimVersion o expectedVersion) 0 []) d₂).orders.find? o
        = some r₂ := by
      rw [view_orders _ d₂ o, hr₂]
      intro o'
      simpa using hno o'
    simp only [exec, hview, Option.isSome_some, if_true, Except.ok.injEq, Prod.mk.injEq] at he
    rcases he with ⟨rfl, rfl⟩
    trivial

/-- What opening an order did, between `tx` and `tx'`: it stored a new row. -/
structure Created (R : List Write → Db → Db → Prop) (data : NewServiceOrder) (o : Uuid)
    (row : OrderRow) (tx tx' : ShopTx) (db : Db) (ws : List Write) : Prop where
  isNew : db.orders.find? o = none
  rewrote : Rewrote o row tx tx' ws []
  status : row.status = data.status
  version : row.version = 0
  budgetTotal : row.budgetTotal = data.budgetTotal.map toDecimal
  services : row.services.map some = data.services.map (·.serviceId.stored?)
  items : row.items.map (fun x => (some x.itemId, x.quantity)) =
    data.items.map (fun x => (x.itemId.stored?, x.quantity))
  history : ∃ t, row.history = [{ fromStatus := none, toStatus := data.status, changedAt := t }]
  customerThere : Was R (fun d =>
    ((postgres.view tx d).customers.find? row.customerId).isSome = true) db
  servicesThere : Was R (fun d => ∀ s ∈ row.services,
    ((postgres.view tx d).services.find? s).isSome = true) db
  itemsThere : Was R (fun d => ∀ x ∈ row.items,
    ((postgres.view tx d).items.find? x.itemId).isSome = true) db

/-- A row inserted for an order was not there, and its customer was. -/
theorem insertOrder_ok {o : Uuid} {customerId vehicleId : IdText} {status : OSStatus}
    {budgetTotal : Option ℚ} {createdAt : ℕ} {db : Db} {columns : OrderColumns} {ws : List Write}
    (h : exec (.insertOrder o customerId vehicleId status budgetTotal createdAt) db
      = .ok (columns, ws)) :
    db.orders.find? o = none ∧ ∃ row : OrderRow, ∃ hc : row.Checks, ws = [.putOrder row hc] ∧
      columns = row.toOrderColumns ∧ row.id = o ∧ row.status = status ∧ row.version = 0 ∧
      row.budgetTotal = budgetTotal.map toDecimal ∧ row.services = [] ∧ row.items = [] ∧
      row.history = [] ∧ (db.customers.find? row.customerId).isSome = true := by
  simp only [exec] at h
  split at h
  · next customer vehicle hcust hveh =>
    split at h
    · cases h
    · next hnew =>
      split at h
      · cases h
      · next hfk =>
        rcases map_ok h with ⟨ws', hst, heq⟩
        cases heq
        rcases storeOrder_ok hst with ⟨hc, rfl⟩
        -- the guards of the statement, read back as facts about the tables
        have hnone : db.orders.find? o = none := by
          cases hf : db.orders.find? o with
          | none => rfl
          | some r => simp [hf] at hnew
        have hthere : (db.customers.find? customer).isSome = true := by
          cases hf : db.customers.find? customer with
          | none => simp [hf] at hfk
          | some c => rfl
        exact ⟨hnone, _, hc, rfl, rfl, rfl, rfl, rfl, rfl, rfl, rfl, rfl, hthere⟩
  · cases h

/-- The end of opening an order: its row is read back, and the history starts. -/
theorem ServiceOrderRepository.openHistory_ensures (hR : ShopInterference R) {o : Uuid}
    {row : OrderRow} {tx₀ tx : ShopTx} {db : Db} {ws : List Write} {cs : List VersionClaim}
    (h : Rewrote o row tx₀ tx ws cs) (columns : OrderColumns) :
    (ServiceOrderRepository.includeRelations columns >>= fun order =>
        now >>= fun changedAt =>
          sql (.insertHistory o { fromStatus := none, toStatus := columns.status, changedAt }) >>=
            fun _ => (Prog.pure order : Work ServiceOrder)).Ensures postgres R G
      (fun order tx' _ => order.id = columns.id.text ∧ ∃ ws' t, Rewrote o
        { row with history := row.history ++
            [{ fromStatus := none, toStatus := columns.status, changedAt := t }] } tx₀ tx' ws' cs)
      tx db := by
  refine Ensures.seq hR.toInterference
    (ServiceOrderRepository.includeRelations_ensures h columns) ?_
  rintro order tx₁ d₁ ⟨hw₁, hoid, -⟩ -
  intro t
  refine ensures_sql.mpr fun d₂ h₂ _ u ws₂ he => ?_
  rcases changeOrder_ok he (hw₁.order d₂) with ⟨row₂, hc₂, hf₂, rfl⟩
  simp only [Except.ok.injEq, Prod.mk.injEq, true_and] at hf₂
  subst hf₂
  have hw₂ := hw₁.record (s := .insertHistory o _) (r := u) hc₂ rfl rfl
  intro db' h₃
  exact ⟨hoid, _, t, hw₂⟩

theorem ServiceOrderRepository.create_ensures (hR : ShopInterference R) (data : NewServiceOrder)
    {tx : ShopTx} {db : Db} (hno : ∀ o, lastOrder tx.writes o = none) :
    (ServiceOrderRepository.create data).Ensures postgres R G
      (fun order tx' db' => ∃ o row ws, Created R data o row tx tx' db' ws ∧ order.id = o.text)
      tx db := by
  unfold ServiceOrderRepository.create
  intro o createdAt
  refine ensures_sql.mpr fun d₁ h₁ _ columns ws₁ he => ?_
  obtain ⟨hnew, row, hc₁, rfl, rfl, hid, hstatus, hversion, hbudget, hs₁, hi₁, hh₁, hcust⟩ :=
    insertOrder_ok he
  rw [view_orders hno] at hnew
  have hw₁ : Rewrote o row tx (tx.record (.insertOrder o data.customerId data.vehicleId
      data.status data.budgetTotal createdAt) row.toOrderColumns [.putOrder row hc₁])
      ([] ++ [.putOrder row hc₁]) [] :=
    ⟨(Continues.refl tx).record rfl, OrderWrites.one hc₁ hid⟩
  have hthere₁ : Was R (fun d =>
      ((postgres.view tx d).customers.find? row.customerId).isSome = true) d₁ :=
    Was.now hR.toInterference hcust
  refine ensures_sql.mpr fun d₂ h₂ _ u₂ ws₂ he => ?_
  rcases createServiceLines_ok he (hw₁.order d₂) with ⟨ids, hc₂, rfl, hmap₂, hall₂⟩
  have hw₂ := hw₁.record (s := .createServiceLines o data.services) (r := u₂) hc₂ rfl rfl
  -- the foreign keys were checked when each line was inserted
  have hthere₂ : Was R (fun d => ∀ s ∈ ids,
      ((postgres.view tx d).services.find? s).isSome = true) d₂ := by
    apply Was.now hR.toInterference
    intro s hs
    rw [← hw₁.service d₂ s]
    exact hall₂ s hs
  refine ensures_sql.mpr fun d₃ h₃ _ u₃ ws₃ he => ?_
  rcases createItemLines_ok he (hw₂.order d₃) with ⟨new, hc₃, rfl, hmap₃, hall₃⟩
  have hw₃ := hw₂.record (s := .createItemLines o data.items) (r := u₃) hc₃ rfl rfl
  have hthere₃ : Was R (fun d => ∀ x ∈ new,
      ((postgres.view tx d).items.find? x.itemId).isSome = true) d₃ := by
    apply Was.now hR.toInterference
    intro x hx
    rw [← hw₂.item d₃ x.itemId]
    exact hall₃ x hx
  refine ((ServiceOrderRepository.openHistory_ensures hR hw₃
    row.toOrderColumns).since hR.toInterference).post ?_
  rintro order tx' db' ⟨⟨hoid, ws', t, hw'⟩, h'⟩
  rw [hs₁, hi₁, hh₁, hstatus] at hw'
  refine ⟨o, _, ws', ⟨?_, hw', hstatus, hversion, hbudget, hmap₂, hmap₃, ⟨t, rfl⟩, ?_, ?_, ?_⟩, ?_⟩
  -- the new id is locked from the insert on, so nobody else stored it
  · rw [hw₃.held hR h', hw₂.held hR h₃, hw₁.held hR h₂, hnew]
  · have hthere := (hthere₁.stable hR.toInterference h₂).stable hR.toInterference h₃
    exact hthere.stable hR.toInterference h'
  · exact (hthere₂.stable hR.toInterference h₃).stable hR.toInterference h'
  · exact hthere₃.stable hR.toInterference h'
  · rw [hoid, hid]

end Specs

end CarRepairShop
