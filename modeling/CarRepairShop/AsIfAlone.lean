import CarRepairShop.Lib.CommitPoint
import CarRepairShop.Statements
import CarRepairShop.Steps

/-! # Orders change as if by one unit of work at a time

A unit of work that opens an order, delivers it or handles a message about it
runs among others, statement by statement. This module shows that its commit is
nevertheless what it would have done alone, from its first statement to its
last, on the tables just before the commit (`commits_as_if_alone`): what it
wrote it has locked, what it references it has locked against removal
(`Shared`), and the order it read without a lock it has claimed at the version
that it read.

Two replies are left out. The end of a diagnosis and a confirmed payment copy
names and prices of the catalogue, which nothing locks, into the command they
send.
-/

namespace CarRepairShop

open Lib Txn Prog

/-! ## References are locked against removal -/

/-- The writes hold the row of `key` against removal. -/
def SharesRow (ws : List Write) (key : LockKey) : Prop :=
  ∃ w ∈ ws, (key, LockMode.keyShare) ∈ w.locks

/-- What the units of work rely on, with the rows that theirs reference. -/
structure Shared (ws : List Write) (a b : Db) : Prop extends Rely ws a b where
  customerStays : ∀ c, (a.customers.find? c).isSome = true → (b.customers.find? c).isSome = true
  vehicleShared : ∀ v, SharesRow ws (.vehicle v) → (a.vehicles.find? v).isSome = true →
    (b.vehicles.find? v).isSome = true
  serviceShared : ∀ s, SharesRow ws (.service s) → (a.services.find? s).isSome = true →
    (b.services.find? s).isSome = true
  itemShared : ∀ i, SharesRow ws (.item i) → (a.items.find? i).isSome = true →
    (b.items.find? i).isSome = true

theorem SharesRow.append {ws ws' : List Write} {key : LockKey} (h : SharesRow ws key) :
    SharesRow (ws ++ ws') key := by
  rcases h with ⟨w, hw, hlock⟩
  exact ⟨w, List.mem_append_left _ hw, hlock⟩

theorem interference_shared : Interference Shared where
  refl ws db := ⟨Rely.refl ws db, fun _ h => h, fun _ _ h => h, fun _ _ h => h, fun _ _ h => h⟩
  trans _ _ _ _ h h' :=
    ⟨h.toRely.trans h'.toRely, fun c hc => h'.customerStays c (h.customerStays c hc),
      fun v hv hin => h'.vehicleShared v hv (h.vehicleShared v hv hin),
      fun s hs hin => h'.serviceShared s hs (h.serviceShared s hs hin),
      fun i hi hin => h'.itemShared i hi (h.itemShared i hi hin)⟩
  held _ _ _ _ h :=
    ⟨h.toRely.held, h.customerStays, fun v hv => h.vehicleShared v hv.append,
      fun s hs => h.serviceShared s hs.append, fun i hi => h.itemShared i hi.append⟩

theorem shopInterference_shared : ShopInterference Shared where
  toInterference := interference_shared
  rely _ _ _ h := h.toRely

/-- Writes none of which removes the vehicle leave it where it was. -/
theorem vehicle_stays {ws : List Write} {v : Uuid} (h : ∀ w ∈ ws, w ≠ .eraseVehicle v) :
    ∀ db : Db, (db.vehicles.find? v).isSome = true →
      ((postgres.applyAll db ws).vehicles.find? v).isSome = true := by
  induction ws with
  | nil => exact fun _ h => h
  | cons w ws ih =>
      intro db hdb
      rw [Engine.applyAll_cons]
      refine ih (fun w' hw' => h w' (List.mem_cons_of_mem _ hw')) _ ?_
      have hw := h w List.mem_cons_self
      cases w with
      | putVehicle row hc =>
          show ((db.vehicles.put row hc).find? v).isSome = true
          rw [Table.find?_put]
          split
          · rfl
          · exact hdb
      | eraseVehicle id =>
          show ((db.vehicles.erase id).find? v).isSome = true
          have hne : id ≠ v := by
            rintro rfl
            exact hw rfl
          rw [Table.find?_erase, if_neg hne]
          exact hdb
      | _ => exact hdb

/-- A commit clear of the held writes removes nothing that they reference. -/
theorem shared_of_commit {db : Db} {ws held : List Write} (hadv : Advances db ws)
    (hclear : ∀ w ∈ ws, ∀ w' ∈ held, w.conflicts w' = false) :
    Shared held db (postgres.applyAll db ws) := by
  -- a removal takes the lock that the reference keeps from it
  have herase : ∀ {key : LockKey} {w : Write}, w ∈ ws → (key, LockMode.update) ∈ w.locks →
      ¬ SharesRow held key := by
    rintro key w hw hlock ⟨w', hw', hlock'⟩
    have hconflict := conflicts_of_locks hlock hlock' rfl
    rw [hclear w hw w' hw'] at hconflict
    cases hconflict
  refine ⟨rely_of_commit hadv hclear, ?_, ?_, ?_, ?_⟩
  · intro c hc
    rw [applyAll_customers]
    cases lastCustomer ws c with
    | none => exact hc
    | some row => rfl
  · intro v hv hin
    refine vehicle_stays (fun w hw heq => ?_) db hin
    subst heq
    exact herase hw (by simp [Write.locks]) hv
  · intro s hs hin
    rw [applyAll_services]
    cases hlast : lastService ws s with
    | none => exact hin
    | some x =>
        cases x with
        | some row => rfl
        | none =>
            rcases mem_of_lastOf hlast with ⟨w, hw, hwt⟩
            cases w with
            | eraseService id =>
                simp only [Write.service?] at hwt
                split at hwt
                · next hid => exact absurd hs (herase hw (by simp [Write.locks, hid]))
                · cases hwt
            | putService row hc => simp [Write.service?] at hwt
            | _ => cases hwt
  · intro i hi hin
    rw [applyAll_items]
    cases hlast : lastItem ws i with
    | none => exact hin
    | some x =>
        cases x with
        | some row => rfl
        | none =>
            rcases mem_of_lastOf hlast with ⟨w, hw, hwt⟩
            cases w with
            | eraseItem id =>
                simp only [Write.item?] at hwt
                split at hwt
                · next hid => exact absurd hi (herase hw (by simp [Write.locks, hid]))
                · cases hwt
            | putItem row hc => simp [Write.item?] at hwt
            | _ => cases hwt

/-! ## What the statements hold -/

/-- The order whose row alone decides what a statement answers. -/
def Stmt.onOrder : Stmt → Option Uuid
  | .findOrder o | .findServiceLines o | .findItemLines o | .countOrders o | .claimVersion o _
  | .findStatusOrThrow o | .deleteServiceLines o | .deleteItemLines o | .updateOrder o _
  | .insertHistory o _ => some o
  | _ => none

theorem exec_onOrder {s : Stmt} {o : Uuid} (hs : s.onOrder = some o) {v v' : Db}
    (h : v.orders.find? o = v'.orders.find? o) : exec s v = exec s v' := by
  cases s <;> cases hs <;> simp only [exec, changeOrder, h]

theorem exec_movesItem_congr {s : Stmt} {i : Uuid} (hs : s.movesItem = some i) {v v' : Db}
    (h : v.items.find? i = v'.items.find? i) : exec s v = exec s v' := by
  cases s <;> cases hs <;> simp only [exec, changeItemIf, h]

section Held

variable {ws new : List Write} {d d' : Db}

/-- A row that the transaction has written is its own, whatever is committed. -/
theorem order_own {o : Uuid} {row : OrderRow} (h : lastOrder ws o = some row) (d d' : Db) :
    (postgres.applyAll d ws).orders.find? o = (postgres.applyAll d' ws).orders.find? o := by
  simp [h]

/-- A row that the statement wrote, and with it what the statement read, is held. -/
theorem order_kept {o : Uuid} {row : OrderRow} (hnew : lastOrder (ws ++ new) o = some row)
    (h : Shared (ws ++ new) d d') :
    (postgres.applyAll d ws).orders.find? o = (postgres.applyAll d' ws).orders.find? o := by
  rw [applyAll_orders, applyAll_orders, h.orderHeld o row hnew]

theorem item_kept {i : Uuid} {x : Option ItemRow} (hnew : lastItem (ws ++ new) i = some x)
    (h : Shared (ws ++ new) d d') :
    (postgres.applyAll d ws).items.find? i = (postgres.applyAll d' ws).items.find? i := by
  rw [applyAll_items, applyAll_items, h.itemHeld i x hnew]

theorem lastOrder_snoc {o : Uuid} {row : OrderRow} (hc : row.Checks) (hid : row.id = o)
    (ws : List Write) : lastOrder (ws ++ [.putOrder row hc]) o = some row := by
  simp [Write.order?, hid]

end Held

/-- The transaction has written order `o`. -/
def Wrote (o : Uuid) (ws : List Write) : Prop := ∃ row, lastOrder ws o = some row

/-- The transaction has written no order. -/
def NoOrder (ws : List Write) : Prop := ∀ o, lastOrder ws o = none

theorem Wrote.append {o : Uuid} {ws : List Write} (h : Wrote o ws) (new : List Write) :
    Wrote o (ws ++ new) := by
  rcases h with ⟨row, hrow⟩
  exact lastOf_append_some hrow

theorem NoOrder.items {ws new : List Write} (h : NoOrder ws) (hnew : ∀ w ∈ new, ∃ i, IsItem i w) :
    NoOrder (ws ++ new) := by
  intro o
  have hnone : lastOf (Write.order? o) new = none := by
    apply lastOf_eq_none
    intro w hw
    rcases hnew w hw with ⟨i, row, hc, rfl, -⟩
    rfl
  rw [lastOrder, lastOf_append, hnone, show lastOf (Write.order? o) ws = none from h o]
  rfl

section Holding

variable {α : Type} {Q₀ M : α → List Write → Prop} {ws : List Write} {o : Uuid}

/-- A statement about the order that is held. -/
theorem onOrder_locks {s : Stmt} (hs : s.onOrder = some o) (h : Wrote o ws) {k : s.Resp → Work α}
    (hk : ∀ d r new, exec s (postgres.applyAll d ws) = .ok (r, new) →
      (k r).Locks postgres Shared Q₀ M (ws ++ new)) :
    (sql s >>= k).Locks postgres Shared Q₀ M ws := by
  intro d r new he
  rcases h with ⟨row, hrow⟩
  refine Or.inr ⟨fun d' _ => ?_, hk d r new he⟩
  rw [← he]
  exact exec_onOrder hs (order_own hrow d' d)

/-- Only the row of an order that is held is read. -/
theorem ServiceOrderRepository.includeRelations_locks (h : Wrote o ws) {row : OrderColumns}
    (hid : row.id = o) : (includeRelations row).Locks postgres Shared (fun _ _ => False)
      (fun _ ws' => Wrote o ws') ws := by
  subst hid
  refine onOrder_locks (s := .findServiceLines row.id) rfl h fun _ _ new _ => ?_
  exact onOrder_locks (s := .findItemLines row.id) rfl (h.append new) fun _ _ new' _ =>
    (h.append new).append new'

theorem ServiceOrderRepository.recordChange_locks (h : Wrote o ws) (previous : OSStatus)
    (status : Option OSStatus) :
    (recordChange o previous status).Locks postgres Shared (fun _ _ => False) (fun _ _ => True)
      ws := by
  unfold recordChange
  cases status with
  | none => trivial
  | some toStatus =>
      dsimp only
      split
      · trivial
      · intro changedAt
        exact onOrder_locks (s := .insertHistory o _) rfl h fun _ _ _ _ => trivial

/-- The columns of an update that leaves the lines. -/
theorem ServiceOrderRepository.setColumns_locks (h : Wrote o ws) (data : OrderScalar)
    (previous : OSStatus) :
    (sql (.updateOrder o data) >>= fun columns =>
        includeRelations columns >>= fun order =>
          recordChange o previous data.status >>= fun _ =>
            (Prog.pure (some order) : Work (Option ServiceOrder))).Locks postgres Shared
      (fun _ _ => False) (fun _ _ => True) ws := by
  refine onOrder_locks (s := .updateOrder o data) rfl h fun d columns new he => ?_
  have hid : columns.id = o := by
    cases hrow : (postgres.applyAll d ws).orders.find? o with
    | none => simp [exec, changeOrder, hrow] at he
    | some row =>
        rcases changeOrder_ok he hrow with ⟨row', hc, hf, -⟩
        cases hf
        have hkey : row.id = o := order_id hrow
        exact hkey
  refine (includeRelations_locks (h.append new) hid).seq (fun _ _ h => h.elim) fun order ws₁ h₁ => ?_
  exact (recordChange_locks h₁ previous data.status).seq (fun _ _ h => h.elim) fun _ _ _ => trivial

/-- A claim that was lost ends in a conflict, or finds no order. -/
theorem claimLost_follows (key : Uuid) (message : String) (ws : List Write) :
    (sql (.countOrders key) >>= fun existing : ℕ =>
      if existing = 0 then (.pure none : Work (Option ServiceOrder))
      else .throw (.app (.conflict message))).Follows postgres (fun _ _ => True)
      (fun updated ws' => updated = none ∧ ws' = ws) ws := by
  refine ⟨trivial, fun v existing new he => ?_⟩
  rw [exec_reads (s := .countOrders key) rfl he, List.append_nil]
  change Follows postgres _ _ (if existing = 0 then _ else _) _
  split
  · exact ⟨rfl, rfl⟩
  · trivial

/-- An update that leaves the lines holds all it reads, or claims nothing. -/
theorem ServiceOrderRepository.update_locks (id : IdText) {data : ServiceOrderChanges}
    (hservices : data.services = none) (hitems : data.items = none) (expectedVersion : Option ℕ)
    (ws : List Write) :
    (update id data expectedVersion).Locks postgres Shared
      (fun updated ws' => updated = none ∧ ws' = ws) (fun _ _ => True) ws := by
  unfold update
  cases id.column? with
  | none => trivial
  | some key =>
      intro d claimed new he
      change exec (.claimVersion key expectedVersion) (postgres.applyAll d ws) = _ at he
      change Follows postgres _ _ (if claimed = 0 then _ else _) _ ∨ _ ∧
        Locks postgres Shared _ _ (if claimed = 0 then _ else _) _
      simp only [exec] at he
      split at he
      · cases he
        rw [if_pos rfl, List.append_nil]
        exact Or.inl (claimLost_follows key _ ws)
      · next row hrow =>
        split at he
        · next hcond =>
          rcases map_ok he with ⟨ws', hst, heq⟩
          cases heq
          rcases storeOrder_ok hst with ⟨hc, rfl⟩
          have hid : row.id = key := order_id hrow
          have hwrote := lastOrder_snoc hc hid ws
          refine Or.inr ⟨fun d' hd => ?_, ?_⟩
          · change exec (.claimVersion key expectedVersion) (postgres.applyAll d' ws) = _
            rw [← exec_onOrder (s := .claimVersion key expectedVersion) rfl (order_kept hwrote hd)]
            simp only [exec, hrow, if_pos hcond]
            rw [hst]
            rfl
          · rw [if_neg Nat.one_ne_zero]
            refine onOrder_locks (s := .findStatusOrThrow key) rfl ⟨_, hwrote⟩
              fun d previous new _ => ?_
            rw [hservices, hitems]
            have hset := setColumns_locks (o := key) (Wrote.append ⟨_, hwrote⟩ new)
              data.toOrderScalar previous
            exact hset.mono (fun _ _ h => h.elim) fun _ _ h => h
        · cases he
          rw [if_pos rfl, List.append_nil]
          exact Or.inl (claimLost_follows key _ ws)

/-- Moving the units of an item: a move that counts no row is refused. -/
theorem movesItem_locks {s : Stmt} {i : Uuid} (hs : s.movesItem = some i)
    {I : List Write → Prop} (hI : ∀ new, (∀ w ∈ new, ∃ i, IsItem i w) → I (ws ++ new))
    {k : s.Resp → Bool} (hk : ∀ v r, exec s v = .ok (r, []) → k r = false) :
    (sql s >>= fun r => (Prog.pure (k r) : Work Bool)).Locks postgres Shared
      (fun moved _ => moved = false) (fun _ ws' => I ws') ws := by
  intro d r new he
  have hitems := exec_movesItem hs r new he
  cases new with
  | nil => exact Or.inl (hk _ r he)
  | cons w rest =>
      -- the row that was changed is held
      rcases hitems w List.mem_cons_self with ⟨row, hc, rfl, hid⟩
      have hlast : ∃ x, lastItem (ws ++ .putItem row hc :: rest) i = some x := by
        have hfirst : lastItem (ws ++ [.putItem row hc]) i = some (some row) := by
          simp [Write.item?, hid]
        rw [List.append_cons]
        exact lastOf_append_some hfirst
      rcases hlast with ⟨x, hx⟩
      refine Or.inr ⟨fun d' hd => ?_, hI _ fun w hw => ⟨i, hitems w hw⟩⟩
      rw [← he]
      exact exec_movesItem_congr hs (item_kept hx hd).symm

section Moves

variable {I : List Write → Prop} (hI : ∀ new, (∀ w ∈ new, ∃ i, IsItem i w) → I (ws ++ new))

include hI

theorem ItemRepository.reserve_locks (id : IdText) (quantity : ℤ) :
    (reserve id quantity).Locks postgres Shared (fun moved _ => moved = false)
      (fun _ ws' => I ws') ws := by
  unfold reserve
  cases id.column? with
  | none =>
      have hsame := hI [] (by simp)
      rw [List.append_nil] at hsame
      exact hsame
  | some key =>
      refine movesItem_locks (s := .reserveItem key quantity) rfl hI fun v r he => ?_
      rcases changeItemIf_ok he with ⟨rfl, -⟩ | ⟨-, row, hc, -, -, hnew⟩
      · rfl
      · cases hnew

theorem ItemRepository.release_locks (id : IdText) (quantity : ℤ) :
    (release id quantity).Locks postgres Shared (fun moved _ => moved = false)
      (fun _ ws' => I ws') ws := by
  unfold release
  cases id.column? with
  | none =>
      have hsame := hI [] (by simp)
      rw [List.append_nil] at hsame
      exact hsame
  | some key =>
      refine movesItem_locks (s := .releaseItem key quantity) rfl hI fun v r he => ?_
      rcases changeItemIf_ok he with ⟨rfl, -⟩ | ⟨-, row, hc, -, -, hnew⟩
      · rfl
      · cases hnew

end Moves

/-- A message that is stored depends on nothing that was read. -/
theorem Outbox.add_locks (traceparent : Option String) (message : OutgoingMessage)
    (ws : List Write) :
    (Outbox.add traceparent message).Locks postgres Shared (fun _ _ => False) (fun _ _ => True)
      ws := by
  unfold Outbox.add
  cases message.serviceOrderId.stored? with
  | none => trivial
  | some key =>
      intro id createdAt d r new he
      cases he
      exact Or.inr ⟨fun d' _ => rfl, trivial⟩

/-- Recording a message: a record that is there is found, and one that is made
is held. -/
theorem ProcessedMessages.markProcessed_locks (messageId : IdText) (type : String) :
    (markProcessed messageId type).Locks postgres Shared
      (fun marked ws' => marked = false ∧ ws' = []) (fun marked _ => marked = true) [] := by
  intro processedAt d count new he
  change exec (.insertProcessed messageId type processedAt) d = _ at he
  have hexec := he
  simp only [exec] at he
  split at he
  · cases he
  · next m hm =>
    split at he
    · cases he
      exact Or.inl ⟨rfl, rfl⟩
    · next hnone =>
      cases he
      refine Or.inr ⟨fun d' hd => ?_, rfl⟩
      have hsame : d'.processed.find? m = d.processed.find? m :=
        hd.recordHeld m ⟨m, type, processedAt⟩ (by simp [Write.processed?])
      change exec (.insertProcessed messageId type processedAt) d' = _
      simp only [exec, hm, hsame]
      rw [if_neg hnone]

end Holding

/-! ## The effects of the saga -/

namespace ServiceOrderSaga

section Effects

variable {ws : List Write}

theorem save_locks (order : ServiceOrder) (changes : ServiceOrderChanges)
    (hservices : changes.services = none) (hitems : changes.items = none) (ws : List Write) :
    (save order changes).Locks postgres Shared (fun _ _ => False) (fun _ _ => True) ws := by
  refine (ServiceOrderRepository.update_locks order.id hservices hitems (some order.version) ws).seq
    ?_ ?_
  · rintro updated ws' ⟨rfl, -⟩
    trivial
  · intro updated ws' _
    cases updated <;> trivial

theorem moveTo_locks (order : ServiceOrder) (status : OSStatus) {changes : ServiceOrderChanges}
    (hservices : changes.services = none) (hitems : changes.items = none) (ws : List Write) :
    (moveTo order status changes).Locks postgres Shared (fun _ _ => False) (fun _ _ => True) ws := by
  unfold moveTo
  cases assertTransition order.status status with
  | error failure => trivial
  | ok u => exact save_locks order { changes with status := some status } hservices hitems ws

theorem releaseReservations_locks (order : ServiceOrder) (hws : NoOrder ws) :
    (releaseReservations order).Locks postgres Shared (fun _ _ => False)
      (fun _ ws' => NoOrder ws') ws := by
  refine Locks.seq (Locks.each (I := NoOrder) ?_ _ hws) (fun _ _ h => h.elim) fun _ ws' h' => h'
  intro line ws h
  refine (ItemRepository.release_locks (I := NoOrder) (fun _ => h.items) line.itemId
    line.quantity).seq ?_ ?_
  · rintro released ws' rfl
    trivial
  · intro released ws' h'
    cases released with
    | false => trivial
    | true => exact h'

/-- Moving the order and storing one command. -/
theorem moveAndSend_locks (traceparent : Option String) (order : ServiceOrder) (status : OSStatus)
    (message : OutgoingMessage) (ws : List Write) :
    (moveTo order status >>= fun updated =>
      Outbox.add traceparent message >>= fun _ => (Prog.pure updated : Work ServiceOrder)).Locks
      postgres Shared (fun _ _ => False) (fun _ _ => True) ws := by
  refine (moveTo_locks order status rfl rfl ws).seq (fun _ _ h => h.elim) fun updated ws₁ _ => ?_
  exact (Outbox.add_locks traceparent message ws₁).seq (fun _ _ h => h.elim) fun _ _ _ => trivial

theorem cancelStep_locks (traceparent : Option String) (order : ServiceOrder)
    (cancel : List CancelTarget) (target : CancelTarget) (ws : List Write) :
    (cancelStep traceparent order cancel target).Locks postgres Shared (fun _ _ => False)
      (fun _ _ => True) ws := by
  unfold cancelStep
  split
  · cases target with
    | execution => exact Outbox.add_locks traceparent _ ws
    | budget => exact Outbox.add_locks traceparent _ ws
  · trivial

theorem stepFailed_locks (traceparent : Option String) (order : ServiceOrder)
    (cancel : List CancelTarget) (hws : NoOrder ws) :
    (stepFailed traceparent order cancel).Locks postgres Shared (fun _ _ => False)
      (fun _ _ => True) ws := by
  refine (releaseReservations_locks order hws).seq (fun _ _ h => h.elim) fun _ ws₁ _ => ?_
  refine (moveTo_locks order _ rfl rfl ws₁).seq (fun _ _ h => h.elim) fun updated ws₂ _ => ?_
  refine (cancelStep_locks traceparent order cancel .execution ws₂).seq (fun _ _ h => h.elim)
    fun _ ws₃ _ => ?_
  exact (cancelStep_locks traceparent order cancel .budget ws₃).seq (fun _ _ h => h.elim)
    fun _ _ _ => trivial

/-- The replies whose effect copies rows of the catalogue into the command it
sends. -/
def readsCatalogue : SagaReplyType → Bool
  | .diagnosisCompleted | .paymentConfirmed => true
  | _ => false

theorem apply_locks (traceparent : Option String) (order : ServiceOrder) {reply : SagaReply}
    (htype : readsCatalogue reply.type = false) (hws : NoOrder ws) :
    (apply traceparent order reply).Locks postgres Shared (fun _ _ => False) (fun _ _ => True)
      ws := by
  unfold apply
  cases ht : reply.type with
  | diagnosisStarted => exact moveTo_locks order _ rfl rfl ws
  | diagnosisCompleted => simp [ht, readsCatalogue] at htype
  | budgetGenerated =>
      dsimp only
      unfold budgetGenerated
      split
      · exact save_locks order _ rfl rfl ws
      · trivial
  | budgetApproved => exact moveAndSend_locks traceparent order _ _ ws
  | budgetRejected =>
      exact (releaseReservations_locks order hws).seq (fun _ _ h => h.elim) fun _ ws₁ _ =>
        moveAndSend_locks traceparent order _ _ ws₁
  | paymentConfirmed => simp [ht, readsCatalogue] at htype
  | paymentFailed =>
      refine (releaseReservations_locks order hws).seq (fun _ _ h => h.elim) fun _ ws₁ _ => ?_
      refine (moveTo_locks order _ rfl rfl ws₁).seq (fun _ _ h => h.elim) fun updated ws₂ _ => ?_
      refine (Outbox.add_locks traceparent _ ws₂).seq (fun _ _ h => h.elim) fun _ ws₃ _ => ?_
      exact (Outbox.add_locks traceparent _ ws₃).seq (fun _ _ h => h.elim) fun _ _ _ => trivial
  | repairStarted => exact fun startedAt => moveTo_locks order _ rfl rfl ws
  | repairCompleted => exact fun finishedAt => moveTo_locks order _ rfl rfl ws
  | executionCancelled => trivial
  | budgetCancelled => trivial

end Effects

end ServiceOrderSaga

/-! ## Handling a message -/

section Messages

variable {G : ShopTx → Stmt → Db → Prop} {o : Uuid} {order : ServiceOrder} {record : ProcessedRow}
variable {tx : ShopTx} {db : Db}

/-- An order reads as its row, at any time before the transaction writes it. -/
theorem ServiceOrderRepository.findById_replays {id : IdText} (hid : id.column? = some o) {d : Db}
    {ws : List Write} (hws : NoOrder ws) {row : OrderRow} (hrow : d.orders.find? o = some row) :
    (findById id).Replays postgres d ws (some row.entity) ws := by
  have hkey : row.id = o := order_id hrow
  have hfind : (postgres.applyAll d ws).orders.find? o = some row := by
    rw [applyAll_orders, show lastOrder ws o = none from hws o, hrow]
    rfl
  have hread : ∀ {β : Type} {s : Stmt} {r : s.Resp} {k : s.Resp → Work β} {b : β},
      exec s (postgres.applyAll d ws) = .ok (r, []) → (k r).Replays postgres d ws b ws →
        (sql s >>= k).Replays postgres d ws b ws := by
    intro β s r k b he hk
    exact ⟨r, [], he, by rw [List.append_nil]; exact hk⟩
  unfold findById
  rw [hid]
  refine hread (s := .findOrder o) (r := some row.toOrderColumns) (by simp only [exec, hfind]; rfl) ?_
  refine Replays.bind (p := includeRelations row.toOrderColumns) (a := row.entity) ?_ ⟨rfl, rfl⟩
  refine hread (s := .findServiceLines row.id) (r := row.services)
    (by simp only [exec, hkey, hfind]; rfl) ?_
  exact hread (s := .findItemLines row.id) (r := row.items)
    (by simp only [exec, hkey, hfind]; rfl) ⟨rfl, rfl⟩

theorem NoOrder.nil : NoOrder [] := fun _ => rfl

theorem noOrder_record (record : ProcessedRow) : NoOrder [.putProcessed record] := fun _ => rfl

/-- A message that wrote an order was handled as if alone: its record is held,
the order it read is the one at its commit, and what its effect reads is held. -/
theorem ServiceOrderSaga.process_alone (message : ServiceOrderSaga.SagaMessage)
    (expected : ServiceOrderSaga.Expected) {effect : ServiceOrder → Work ServiceOrderSaga.Effect}
    (hlocks : ∀ order ws, NoOrder ws →
      (effect order).Locks postgres Shared (fun _ _ => False) (fun _ _ => True) ws)
    (hread : ∀ o order record tx db, Due o order record tx db →
      expected.admits order.status = true → (effect order).Ensures postgres Shared G
        (fun _ tx' db' => NoOrder tx'.writes ∨
          ∃ r, db'.orders.find? o = some r ∧ r.entity = order) tx db) (db : Db) :
    (ServiceOrderSaga.process message expected effect).Ensures postgres Shared G
      (fun res tx db' => NoOrder tx.writes ∨
        (ServiceOrderSaga.process message expected effect).Replays postgres db' [] res tx.writes)
      {} db := by
  have hI := interference_shared
  unfold ServiceOrderSaga.process
  refine Ensures.seq hI (((ProcessedMessages.markProcessed_locks message.messageId
    message.type).ensures hI {} db).and (ProcessedMessages.markProcessed_ensures
      shopInterference_shared message.messageId message.type)) ?_
  rintro marked tx₁ d₁ ⟨hlock, m, hm, hold, hnew⟩ -
  cases marked with
  | false =>
      intro db' _
      rcases hold rfl with ⟨hc, -⟩
      rw [hc.start.1]
      exact Or.inl .nil
  | true =>
      rcases hlock with ⟨hfalse, -⟩ | ⟨-, hmark⟩
      · cases hfalse
      rcases hnew rfl with ⟨-, record, hrecord, hc₁⟩
      have hwrites₁ : tx₁.writes = [.putProcessed record] := hc₁.start.1
      have hno₁ : NoOrder tx₁.writes := by
        rw [hwrites₁]
        exact noOrder_record record
      refine Ensures.seq hI (ServiceOrderRepository.findById_ensures shopInterference_shared
        message.serviceOrderId hno₁) ?_
      rintro found tx₂ d₂ ⟨hc₂, hfound⟩ h₂
      have hwrites₂ : tx₂.writes = tx₁.writes := by rw [hc₂.writes, List.append_nil]
      have hno₂ : NoOrder tx₂.writes := by
        rw [hwrites₂]
        exact hno₁
      cases found with
      | none => exact fun db' _ => Or.inl hno₂
      | some order =>
          rcases hfound with ⟨o, ho, hf⟩
          dsimp only
          split
          · exact fun db' _ => Or.inl hno₂
          · next hadmits =>
            have hadmits' : expected.admits order.status = true := by simpa using hadmits
            have hdue : Due o order record tx₂ d₂ := by
              refine ⟨hwrites₂.trans hwrites₁, ?_, hf.id, hf.seen⟩
              exact (hc₁.trans hc₂).start.2
            refine Ensures.map hI ((((hread o order record tx₂ d₂ hdue hadmits').and
              ((hlocks order tx₂.writes hno₂).ensures hI _ d₂)).since hI).post ?_)
            rintro applied tx₃ d₃ ⟨⟨hvalid, hreplay⟩, h₃⟩
            rcases hvalid with hnone | ⟨r, hr, rfl⟩
            · exact Or.inl hnone
            rcases hreplay with hfalse | ⟨-, hreplay⟩
            · exact hfalse.elim
            -- the three parts, each as it would run on the tables at the commit
            rw [hwrites₂] at h₃
            refine Or.inr ((hmark d₃ (hI.trans _ _ _ _ h₂ h₃)).bind ?_)
            refine (ServiceOrderRepository.findById_replays ho hno₁ hr).bind ?_
            show (if !expected.admits r.entity.status then _ else _ : Work SagaReplyResult).Replays
              postgres d₃ tx₁.writes _ tx₃.writes
            rw [if_neg hadmits, ← hwrites₂]
            exact (hreplay d₃ (hI.refl _ _)).bind ⟨rfl, rfl⟩

/-- A reaction was carried out on the row that was read. -/
theorem Reacted.read {reaction : Reaction} {budgetTotal : Option ℚ}
    (h : Reacted Shared G reaction o order record budgetTotal tx db) :
    ∃ r, db.orders.find? o = some r ∧ r.entity = order := by
  rcases h with ⟨data, r₀, r₁, hent, -, hperf⟩
  exact ⟨r₀, hperf.commit.found, hent⟩

theorem ServiceOrderSaga.apply_read (traceparent : Option String) (reply : SagaReply)
    (h : Due o order record tx db) :
    (ServiceOrderSaga.apply traceparent order reply).Ensures postgres Shared G
      (fun _ tx' db' => NoOrder tx'.writes ∨ ∃ r, db'.orders.find? o = some r ∧ r.entity = order)
      tx db := by
  have hR := shopInterference_shared
  have hno : NoOrder tx.writes := by
    rw [h.writes]
    exact noOrder_record record
  unfold ServiceOrderSaga.apply
  cases reply.type with
  | diagnosisStarted =>
      refine (ServiceOrderSaga.moveOnly_ensures hR .diagnosis {} rfl rfl rfl h).post ?_
      exact fun _ _ _ hpost => Or.inr hpost.1.read
  | diagnosisCompleted =>
      refine (ServiceOrderSaga.diagnosisCompleted_ensures hR traceparent h).post ?_
      exact fun _ _ _ hpost => Or.inr hpost.1.1.read
  | budgetGenerated =>
      refine (ServiceOrderSaga.budgetGenerated_ensures hR reply h).post ?_
      rintro _ _ _ ⟨total, -, hreact, -⟩
      exact Or.inr hreact.read
  | budgetApproved =>
      refine (ServiceOrderSaga.moveAndSend_ensures hR traceparent .approved none .requestPayment
        .empty (fun _ _ => rfl) h.ready).post ?_
      exact fun _ _ _ hpost => Or.inr hpost.1.read
  | budgetRejected =>
      refine (ServiceOrderSaga.budgetRejected_ensures hR traceparent h).post ?_
      exact fun _ _ _ hpost => Or.inr hpost.1.read
  | paymentConfirmed =>
      refine (ServiceOrderSaga.paymentConfirmed_ensures hR traceparent h).post ?_
      exact fun _ _ _ hpost => Or.inr hpost.1.read
  | paymentFailed =>
      refine (ServiceOrderSaga.paymentFailed_ensures hR traceparent h).post ?_
      exact fun _ _ _ hpost => Or.inr hpost.1.read
  | repairStarted =>
      intro startedAt
      refine (ServiceOrderSaga.moveOnly_ensures hR .execution { startedAt := some startedAt }
        rfl rfl rfl h).post ?_
      exact fun _ _ _ hpost => Or.inr hpost.1.read
  | repairCompleted =>
      intro finishedAt
      refine (ServiceOrderSaga.moveOnly_ensures hR .finished { finishedAt := some finishedAt }
        rfl rfl rfl h).post ?_
      exact fun _ _ _ hpost => Or.inr hpost.1.read
  | executionCancelled => exact fun db' _ => Or.inl hno
  | budgetCancelled => exact fun db' _ => Or.inl hno

theorem ServiceOrderSaga.handle_alone {reply : SagaReply}
    (htype : ServiceOrderSaga.readsCatalogue reply.type = false) (traceparent : Option String)
    (db : Db) :
    (ServiceOrderSaga.handle reply traceparent).Ensures postgres Shared G
      (fun res tx db' => NoOrder tx.writes ∨
        (ServiceOrderSaga.handle reply traceparent).Replays postgres db' [] res tx.writes) {} db := by
  refine ServiceOrderSaga.process_alone _ _ ?_ ?_ db
  · intro order ws hws
    exact (ServiceOrderSaga.apply_locks traceparent order htype hws).seq (fun _ _ h => h.elim)
      fun _ _ _ => trivial
  · intro o order record tx db h _
    exact Ensures.map interference_shared (ServiceOrderSaga.apply_read traceparent reply h)

theorem ServiceOrderSaga.handleFailedCommand_alone (command : FailedSagaCommand)
    (traceparent : Option String) (db : Db) :
    (ServiceOrderSaga.handleFailedCommand command traceparent).Ensures postgres Shared G
      (fun res tx db' => NoOrder tx.writes ∨
        (ServiceOrderSaga.handleFailedCommand command traceparent).Replays postgres db' [] res
          tx.writes) {} db := by
  refine ServiceOrderSaga.process_alone _ _ ?_ ?_ db
  · intro order ws hws
    unfold ServiceOrderSaga.failedCommandEffect
    split
    · trivial
    · exact (ServiceOrderSaga.stepFailed_locks traceparent order _ hws).seq (fun _ _ h => h.elim)
        fun _ _ _ => trivial
  · intro o order record tx db h _
    unfold ServiceOrderSaga.failedCommandEffect
    split
    · intro db' _
      rw [h.writes]
      exact Or.inl (noOrder_record record)
    · next cancel _ =>
      refine Ensures.map interference_shared ((ServiceOrderSaga.stepFailed_ensures
        shopInterference_shared traceparent cancel h).post ?_)
      exact fun _ _ _ hpost => Or.inr hpost.1.read

/-- A delivery, likewise. -/
theorem DeliverOS.execute_alone (osId : IdText) (db : Db) :
    (DeliverOS.execute osId).Ensures postgres Shared G
      (fun res tx db' => NoOrder tx.writes ∨
        (DeliverOS.execute osId).Replays postgres db' [] res tx.writes) {} db := by
  have hI := interference_shared
  have hR := shopInterference_shared
  unfold DeliverOS.execute
  refine Ensures.seq hI (findOSOrThrow_ensures hR osId NoOrder.nil) ?_
  rintro os tx₁ d₁ ⟨hc₁, o, ho, hf⟩ -
  cases hlegal : assertTransition os.status .delivered with
  | error failure => trivial
  | ok u =>
      intro t
      have hempty : tx₁.writes = [] := hc₁.start.1
      have hno : NoOrder tx₁.writes := by
        rw [hempty]
        exact .nil
      refine ((((ServiceOrderRepository.update_ensures hR ho _ (some os.version) hno hf.there).and
        ((ServiceOrderRepository.update_locks osId rfl rfl (some os.version)
          tx₁.writes).ensures hI _ d₁)).since hI).post ?_)
      rintro result tx₂ d₂ ⟨⟨⟨r₀, r₁, ws, hu, -⟩, hreplay⟩, h₂⟩
      rcases hreplay with ⟨-, hsame⟩ | ⟨-, hreplay⟩
      · rw [hsame]
        exact Or.inl hno
      -- the version claimed is the one read, so the row claimed is the row read
      have hent := (hf.stable hR h₂).seen.claimed hu.found (hu.expected os.version rfl)
      subst hent
      have hfind : (findOSOrThrow osId).Replays postgres d₂ [] r₀.entity [] :=
        (ServiceOrderRepository.findById_replays ho .nil hu.found).bind ⟨rfl, rfl⟩
      refine Or.inr (hfind.bind ?_)
      rw [hlegal]
      refine ⟨t, ?_⟩
      rw [← hempty]
      exact hreplay d₂ (hI.refl _ _)

end Messages

/-! ## Opening an order -/

/-- Rows of items and of orders only. -/
def OrderAndItems (ws : List Write) : Prop := ∀ w ∈ ws, (∃ i, IsItem i w) ∨ ∃ o, IsOrder o w

section Plain

variable {ws new : List Write} {o : Uuid}

theorem OrderAndItems.nil : OrderAndItems [] := by
  intro w hw
  cases hw

theorem OrderAndItems.items (h : OrderAndItems ws) (hnew : ∀ w ∈ new, ∃ i, IsItem i w) :
    OrderAndItems (ws ++ new) := by
  intro w hw
  rcases List.mem_append.mp hw with hw | hw
  · exact h w hw
  · exact Or.inl (hnew w hw)

theorem OrderAndItems.order (h : OrderAndItems ws) (hnew : ∀ w ∈ new, IsOrder o w) :
    OrderAndItems (ws ++ new) := by
  intro w hw
  rcases List.mem_append.mp hw with hw | hw
  · exact h w hw
  · exact Or.inr ⟨o, hnew w hw⟩

/-- They are writes of nothing else. -/
theorem OrderAndItems.lastOf (h : OrderAndItems ws) {α : Type} {f : Write → Option α}
    (hitem : ∀ row hc, f (.putItem row hc) = none) (horder : ∀ row hc, f (.putOrder row hc) = none) :
    lastOf f ws = none := by
  apply lastOf_eq_none
  intro w hw
  rcases h w hw with ⟨i, row, hc, rfl, -⟩ | ⟨o, row, hc, rfl, -⟩
  · exact hitem row hc
  · exact horder row hc

theorem OrderAndItems.customers (h : OrderAndItems ws) (d : Db) (c : Uuid) :
    (postgres.applyAll d ws).customers.find? c = d.customers.find? c := by
  rw [applyAll_customers, show lastCustomer ws c = none from h.lastOf (fun _ _ => rfl) fun _ _ => rfl]
  rfl

theorem OrderAndItems.services (h : OrderAndItems ws) (d : Db) (s : Uuid) :
    (postgres.applyAll d ws).services.find? s = d.services.find? s := by
  rw [applyAll_services, show lastService ws s = none from h.lastOf (fun _ _ => rfl) fun _ _ => rfl]
  rfl

theorem OrderAndItems.vehicles (h : OrderAndItems ws) (d : Db) :
    (postgres.applyAll d ws).vehicles = d.vehicles := by
  induction ws generalizing d with
  | nil => rfl
  | cons w ws ih =>
      rw [Engine.applyAll_cons, ih fun w' hw' => h w' (List.mem_cons_of_mem _ hw')]
      rcases h w List.mem_cons_self with ⟨i, row, hc, rfl, -⟩ | ⟨o, row, hc, rfl, -⟩ <;> rfl

end Plain

/-- Columns of lines whose services are there again. -/
theorem serviceColumns_again {v v' : Db} {lines : List OSService} {ids : List Uuid}
    (h : serviceColumns v lines = .ok ids)
    (hthere : ∀ s ∈ ids, (v'.services.find? s).isSome = true) :
    serviceColumns v' lines = .ok ids := by
  induction lines generalizing ids with
  | nil => exact h
  | cons line lines ih =>
      simp only [serviceColumns] at h ⊢
      split at h
      · cases h
      · next id hid =>
        split at h
        · cases h
        · rcases map_ok h with ⟨rest, hrest, rfl⟩
          have hsome := hthere id List.mem_cons_self
          have hnone : ¬ (v'.services.find? id).isNone = true := by simp [Option.isSome_iff_ne_none.mp hsome]
          rw [if_neg hnone, ih hrest fun s hs => hthere s (List.mem_cons_of_mem _ hs)]
          rfl

theorem itemColumns_again {v v' : Db} {lines : List OSItem} {new : List ItemLine}
    (h : itemColumns v lines = .ok new)
    (hthere : ∀ x ∈ new, (v'.items.find? x.itemId).isSome = true) :
    itemColumns v' lines = .ok new := by
  induction lines generalizing new with
  | nil => exact h
  | cons line lines ih =>
      simp only [itemColumns] at h ⊢
      split at h
      · cases h
      · next id hid =>
        split at h
        · cases h
        · rcases map_ok h with ⟨rest, hrest, rfl⟩
          have hsome := hthere ⟨id, line.quantity⟩ List.mem_cons_self
          have hnone : ¬ (v'.items.find? id).isNone = true := by simp [Option.isSome_iff_ne_none.mp hsome]
          rw [if_neg hnone, ih hrest fun x hx => hthere x (List.mem_cons_of_mem _ hx)]
          rfl

section Opening

variable {α : Type} {Q₀ M : α → List Write → Prop} {ws : List Write} {o : Uuid}

/-- Inserting the row of an order holds its id, and its customer and vehicle
against removal. -/
theorem insertOrder_locks (h : OrderAndItems ws) {customerId vehicleId : IdText} {status : OSStatus}
    {budgetTotal : Option ℚ} {createdAt : ℕ} {k : OrderColumns → Work α}
    (hk : ∀ columns new, columns.id = o → (∀ w ∈ new, IsOrder o w) → Wrote o (ws ++ new) →
      (k columns).Locks postgres Shared Q₀ M (ws ++ new)) :
    (sql (.insertOrder o customerId vehicleId status budgetTotal createdAt) >>= k).Locks postgres
      Shared Q₀ M ws := by
  intro d columns new he
  change exec (.insertOrder o customerId vehicleId status budgetTotal createdAt)
    (postgres.applyAll d ws) = _ at he
  have horder := exec_takesOrder (s := .insertOrder o customerId vehicleId status budgetTotal
    createdAt) rfl columns new he
  simp only [exec] at he
  split at he
  · next customer vehicle hcust hveh =>
    split at he
    · cases he
    · next hnew =>
      split at he
      · cases he
      · next hfk =>
        rcases map_ok he with ⟨ws', hst, heq⟩
        cases heq
        rcases storeOrder_ok hst with ⟨hc, rfl⟩
        have hwrote := lastOrder_snoc (o := o) hc rfl ws
        rw [not_or, h.customers, h.vehicles] at hfk
        refine Or.inr ⟨fun d' hd => ?_, hk _ _ rfl horder ⟨_, hwrote⟩⟩
        change exec (.insertOrder o customerId vehicleId status budgetTotal createdAt)
          (postgres.applyAll d' ws) = _
        have hcustomer := hd.customerStays customer (by simpa [Option.isSome_iff_ne_none] using hfk.1)
        have hvehicle := hd.vehicleShared vehicle
          ⟨_, List.mem_append_right _ (List.mem_singleton_self _), by simp [Write.locks]⟩
          (by simpa [Option.isSome_iff_ne_none] using hfk.2)
        have hfk' : ¬ ((d'.customers.find? customer).isNone = true ∨
            (d'.vehicles.find? vehicle).isNone = true) := by
          simp [Option.isSome_iff_ne_none.mp hcustomer, Option.isSome_iff_ne_none.mp hvehicle]
        simp only [exec, hcust, hveh, h.customers, h.vehicles]
        rw [← order_kept hwrote hd, if_neg hnew, if_neg hfk', hst]
        rfl
  · cases he

/-- Service lines hold the services they reference against removal. -/
theorem createServiceLines_locks (h : OrderAndItems ws) (ho : Wrote o ws) {lines : List OSService}
    {k : Unit → Work α}
    (hk : ∀ d new, exec (.createServiceLines o lines) (postgres.applyAll d ws) = .ok ((), new) →
      (k ()).Locks postgres Shared Q₀ M (ws ++ new)) :
    (sql (.createServiceLines o lines) >>= k).Locks postgres Shared Q₀ M ws := by
  intro d u new he
  rcases ho with ⟨row, hrow⟩
  have hown : ∀ d, (postgres.applyAll d ws).orders.find? o = some row := by
    intro d
    rw [applyAll_orders, hrow]
    rfl
  refine Or.inr ⟨fun d' hd => ?_, hk d new he⟩
  rcases changeOrder_ok he (hown d) with ⟨row', hc, hf, rfl⟩
  rcases bind_ok hf with ⟨ids, hcols, heq⟩
  have hagain : serviceColumns (postgres.applyAll d' ws) lines = .ok ids := by
    refine serviceColumns_again hcols fun s hs => ?_
    have hthere := (serviceColumns_ok hcols).2 s hs
    rw [h.services] at hthere ⊢
    refine hd.serviceShared s ⟨_, List.mem_append_right _ (List.mem_singleton_self _), ?_⟩ hthere
    cases heq
    simp [Write.locks, hs]
  change exec (.createServiceLines o lines) (postgres.applyAll d ws) = _ at he
  change exec (.createServiceLines o lines) (postgres.applyAll d' ws) = _
  rw [← he]
  simp only [exec, changeOrder, hown, hcols, hagain]

/-- Item lines hold the items they reference against removal. -/
theorem createItemLines_locks (ho : Wrote o ws) {lines : List OSItem} {k : Unit → Work α}
    (hk : ∀ d new, exec (.createItemLines o lines) (postgres.applyAll d ws) = .ok ((), new) →
      (k ()).Locks postgres Shared Q₀ M (ws ++ new)) :
    (sql (.createItemLines o lines) >>= k).Locks postgres Shared Q₀ M ws := by
  intro d u new he
  rcases ho with ⟨row, hrow⟩
  have hown : ∀ d, (postgres.applyAll d ws).orders.find? o = some row := by
    intro d
    rw [applyAll_orders, hrow]
    rfl
  refine Or.inr ⟨fun d' hd => ?_, hk d new he⟩
  rcases changeOrder_ok he (hown d) with ⟨row', hc, hf, rfl⟩
  rcases bind_ok hf with ⟨lines', hcols, heq⟩
  have hagain : itemColumns (postgres.applyAll d' ws) lines = .ok lines' := by
    refine itemColumns_again hcols fun x hx => ?_
    have hthere := (itemColumns_ok hcols).2 x hx
    rw [applyAll_items] at hthere ⊢
    cases hlast : lastItem ws x.itemId with
    | some y =>
        rw [hlast] at hthere
        exact hthere
    | none =>
        rw [hlast] at hthere
        refine hd.itemShared x.itemId ⟨_, List.mem_append_right _ (List.mem_singleton_self _), ?_⟩
          hthere
        cases heq
        simp only [Write.locks, List.mem_cons, List.mem_append, List.mem_map, Prod.mk.injEq]
        exact Or.inr ⟨x, Or.inr hx, rfl, trivial⟩
  change exec (.createItemLines o lines) (postgres.applyAll d ws) = _ at he
  change exec (.createItemLines o lines) (postgres.applyAll d' ws) = _
  rw [← he]
  simp only [exec, changeOrder, hown, hcols, hagain]

/-- Everything that opening an order reads is held. -/
theorem ServiceOrderRepository.create_locks (data : NewServiceOrder) (h : OrderAndItems ws) :
    (create data).Locks postgres Shared (fun _ _ => False) (fun _ _ => True) ws := by
  intro o createdAt
  refine insertOrder_locks (o := o) h fun columns ws₁ hid hord₁ hw₁ => ?_
  have h₁ := h.order hord₁
  refine createServiceLines_locks h₁ hw₁ fun d₂ ws₂ he₂ => ?_
  have hord₂ := exec_rewritesOrder (s := .createServiceLines o data.services) rfl () ws₂ he₂
  refine createItemLines_locks (hw₁.append ws₂) fun d₃ ws₃ he₃ => ?_
  refine (includeRelations_locks ((hw₁.append ws₂).append ws₃) hid).seq (fun _ _ h => h.elim)
    fun order ws₄ h₄ => ?_
  intro changedAt
  exact onOrder_locks (s := .insertHistory o _) rfl h₄ fun _ _ _ _ => trivial

/-- The services of an order that was opened were there. -/
theorem ServiceOrderRepository.create_services {data : NewServiceOrder} (h : OrderAndItems ws)
    {d : Db} {order : ServiceOrder} {ws' : List Write}
    (hcreate : (create data).Replays postgres d ws order ws') :
    ∀ line ∈ data.services, ∃ s, line.serviceId.stored? = some s ∧
      (d.services.find? s).isSome = true := by
  rcases hcreate with ⟨o, createdAt, columns, ws₁, he₁, u, ws₂, he₂, -⟩
  have hord₁ := exec_takesOrder (s := .insertOrder o data.customerId data.vehicleId data.status
    data.budgetTotal createdAt) rfl columns ws₁ he₁
  change exec (.createServiceLines o data.services) (postgres.applyAll d (ws ++ ws₁)) = _ at he₂
  cases hrow : (postgres.applyAll d (ws ++ ws₁)).orders.find? o with
  | none =>
      simp only [exec, changeOrder, hrow] at he₂
      cases he₂
  | some row =>
      rcases changeOrder_ok he₂ hrow with ⟨row', hc, hf, -⟩
      rcases bind_ok hf with ⟨ids, hcols, -⟩
      rcases serviceColumns_ok hcols with ⟨hmap, hthere⟩
      intro line hline
      have hmem : line.serviceId.stored? ∈ ids.map some := by
        rw [hmap]
        exact List.mem_map_of_mem hline
      rcases List.mem_map.mp hmem with ⟨s, hs, heq⟩
      have hsome := hthere s hs
      rw [(h.order hord₁).services] at hsome
      exact ⟨s, heq.symm, hsome⟩

end Opening

namespace CreateServiceOrder

section Alone

variable {G : ShopTx → Stmt → Db → Prop} {ws : List Write} {d : Db}

/-- Services that are there are resolved, whatever they cost by now. -/
theorem resolveServices_replays {ids : List IdText}
    (h : ∀ id ∈ ids, ∃ s, id.column? = some s ∧ (d.services.find? s).isSome = true) :
    (resolveServices ids).Replays postgres d [] (ids.map fun id => ⟨id⟩) [] := by
  unfold resolveServices
  induction ids with
  | nil => exact ⟨rfl, rfl⟩
  | cons id ids ih =>
      have hone : (resolveService id).Replays postgres d [] ⟨id⟩ [] := by
        rcases h id List.mem_cons_self with ⟨s, hs, hsome⟩
        rcases Option.isSome_iff_exists.mp hsome with ⟨row, hrow⟩
        have hread : (ServiceRepository.findById id).Replays postgres d [] (some row.toEntity) [] := by
          unfold ServiceRepository.findById
          rw [hs]
          refine ⟨some row, [], ?_, rfl, rfl⟩
          show exec (.findService s) d = _
          simp only [exec, hrow]
        exact hread.bind ⟨rfl, rfl⟩
      exact hone.bind ((ih fun id' hid' => h id' (List.mem_cons_of_mem _ hid')).bind ⟨rfl, rfl⟩)

/-- What is resolved are the services asked for, each under the id of a column. -/
theorem resolveServices_follows (ids : List IdText) :
    (resolveServices ids).Follows postgres (fun _ _ => True)
      (fun services ws' => services = ids.map (fun id => ⟨id⟩) ∧
        (∀ id ∈ ids, id.column?.isSome = true) ∧ ws' = ws) ws := by
  unfold resolveServices
  induction ids with
  | nil => exact ⟨rfl, by simp, rfl⟩
  | cons id ids ih =>
      have hone : (resolveService id).Follows postgres (fun _ _ => True)
          (fun service ws' => service = ⟨id⟩ ∧ id.column?.isSome = true ∧ ws' = ws) ws := by
        unfold resolveService ServiceRepository.findById
        cases hcol : id.column? with
        | none => trivial
        | some key =>
            refine ⟨trivial, fun v found new he => ?_⟩
            cases exec_reads (s := .findService key) rfl he
            cases found with
            | none => trivial
            | some row => exact ⟨rfl, rfl, List.append_nil ws⟩
      refine hone.seq ?_
      rintro service ws₁ ⟨rfl, hcol, rfl⟩
      refine ih.seq ?_
      rintro services ws₂ ⟨rfl, hcols, rfl⟩
      exact ⟨rfl, List.forall_mem_cons.mpr ⟨hcol, hcols⟩, rfl⟩

/-- An item with enough units is there. -/
theorem reserve_found {id : IdText} {quantity : ℤ} {ws' : List Write}
    (h : (ItemRepository.reserve id quantity).Replays postgres d ws true ws') :
    ∃ item, (ItemRepository.findById id).Replays postgres d ws (some item) ws := by
  unfold ItemRepository.reserve at h
  unfold ItemRepository.findById
  cases hid : id.column? with
  | none =>
      rw [hid] at h
      cases h.1
  | some key =>
      rw [hid] at h
      rcases h with ⟨count, new, he, hcount, -⟩
      change exec (.reserveItem key quantity) (postgres.applyAll d ws) = _ at he
      rcases changeItemIf_ok he with ⟨rfl, -⟩ | ⟨-, row, hc, hrow, -, -⟩
      · cases hcount
      · refine ⟨row.toEntity, some row, [], ?_, ?_⟩
        · show exec (.findItem key) (postgres.applyAll d ws) = _
          simp only [exec, hrow]
        · rw [List.append_nil]
          exact ⟨rfl, rfl⟩

/-- A line is reserved as if alone: the item read is there still, as its row is
held from the reservation on. -/
theorem reserveLine_repeats (line : OSItem) (tx : ShopTx) (db : Db) (h : OrderAndItems tx.writes) :
    (reserveLine line).Repeats postgres Shared G (fun _ tx' => OrderAndItems tx'.writes) tx db := by
  have hI := interference_shared
  have hread := (ItemRepository.findById_issues (fun _ => rfl) line.itemId).follows (E := postgres)
    (P := fun _ _ => True) (fun _ _ _ => trivial) (fun _ _ _ _ hs he => exec_reads hs he) tx.writes
  refine Ensures.seq hI (hread.ensures _ db) fun item tx₁ d₁ hws _ => ?_
  cases item with
  | none => trivial
  | some item =>
      have hrest : (ItemRepository.reserve line.itemId line.quantity >>= fun reserved =>
          if reserved then (Prog.pure line : Work OSItem)
          else throwApp (.validation s!"Insufficient stock for item {line.itemId}")).Locks postgres
            Shared (fun _ _ => False) (fun _ ws' => OrderAndItems ws') tx₁.writes := by
        refine (ItemRepository.reserve_locks (I := OrderAndItems) (fun _ hnew => ?_) line.itemId
          line.quantity).seq ?_ ?_
        · rw [hws]
          exact h.items hnew
        · rintro reserved ws' rfl
          trivial
        · intro reserved ws' h'
          cases reserved with
          | false => trivial
          | true => exact h'
      refine (hrest.repeats hI d₁).post ?_
      rintro y tx₂ d₂ ⟨hplain, hall⟩
      refine ⟨hplain, fun d hd => ?_⟩
      rcases (hall d hd).parts with ⟨reserved, ws₁, hreserve, hpure⟩
      cases reserved with
      | false => exact hpure.elim
      | true =>
          rcases reserve_found hreserve with ⟨item', hitem'⟩
          rw [← hws]
          exact hitem'.bind (hreserve.bind hpure)

/-- Opening an order, as if alone. -/
theorem execute_alone (input : CreateServiceOrderInput) (traceparent : Option String) (db : Db) :
    (execute input traceparent).Ensures postgres Shared G
      (fun order tx db' => (execute input traceparent).Replays postgres db' [] order tx.writes)
      {} db := by
  have hI := interference_shared
  unfold execute
  refine Ensures.seq hI ((resolveServices_follows input.services).ensures {} db) ?_
  rintro services tx₁ d₁ ⟨rfl, hcols, hws⟩ -
  refine Ensures.seq hI (Repeats.each (I := fun tx => OrderAndItems tx.writes) hI
    reserveLine_repeats input.items ?_) ?_
  · rw [hws]
    exact .nil
  rintro items tx₂ d₂ ⟨h₂, hitems⟩ -
  have hrest : (ServiceOrderRepository.create
        { customerId := input.customerId, vehicleId := input.vehicleId, status := .received
          services := input.services.map fun id => ⟨id⟩, items } >>= fun order =>
        Outbox.add traceparent
          { destination := .executionCommands, type := .enqueueDiagnosis
            serviceOrderId := order.id, payload := .empty } >>= fun _ =>
          (Prog.pure order : Work ServiceOrder)).Locks postgres Shared (fun _ _ => False)
      (fun _ _ => True) tx₂.writes := by
    refine (ServiceOrderRepository.create_locks _ h₂).seq (fun _ _ h => h.elim) fun order ws₃ _ => ?_
    exact (Outbox.add_locks traceparent _ ws₃).seq (fun _ _ h => h.elim) fun _ _ _ => trivial
  refine ((hrest.repeats hI d₂).since hI).post ?_
  rintro order tx₃ d₃ ⟨⟨-, hall⟩, h₃⟩
  have hcreate := hall d₃ (hI.refl _ _)
  rcases hcreate.parts with ⟨opened, ws₃, hopened, -⟩
  -- the services are there at the commit: the lines of the order hold them
  have hresolve : (resolveServices input.services).Replays postgres d₃ []
      (input.services.map fun id => ⟨id⟩) [] := by
    refine resolveServices_replays fun id hid => ?_
    rcases Option.isSome_iff_exists.mp (hcols id hid) with ⟨s, hcol⟩
    rcases ServiceOrderRepository.create_services h₂ hopened ⟨id⟩ (List.mem_map_of_mem hid) with
      ⟨s', hstored, hthere⟩
    rw [IdText.stored?_of_column? hcol] at hstored
    cases hstored
    exact ⟨s, hcol, hthere⟩
  have hreserve := hitems d₃ h₃
  rw [hws] at hreserve
  exact hresolve.bind (hreserve.bind hcreate)

end Alone

end CreateServiceOrder

/-! ## Every run -/

/-- The operations that write an order from nothing but what they lock or claim
at the version that they read. -/
def Op.alone : Op → Bool
  | .createServiceOrder .. | .deliverOS _ | .handleFailedCommand .. => true
  | .handle reply _ => !ServiceOrderSaga.readsCatalogue reply.type
  | _ => false

section Runs

variable {G : ShopTx → Stmt → Db → Prop}

theorem program_alone {op : Op} (hop : op.alone = true) (db : Db) :
    (program op).Ensures postgres Shared G (fun result tx db' => NoOrder tx.writes ∨
      (program op).Replays postgres db' [] result tx.writes) {} db := by
  -- what is returned is made of what the use case returned
  have hreturn : ∀ {α : Type} {p : Work α} {f : α → Outcome},
      p.Ensures postgres Shared G
        (fun a tx db' => NoOrder tx.writes ∨ p.Replays postgres db' [] a tx.writes) {} db →
      (returning p f).Ensures postgres Shared G (fun result tx db' => NoOrder tx.writes ∨
        (returning p f).Replays postgres db' [] result tx.writes) {} db := by
    intro α p f h
    refine Ensures.map interference_shared (h.post ?_)
    rintro a tx db' (hno | hreplay)
    · exact Or.inl hno
    · exact Or.inr (hreplay.bind ⟨rfl, rfl⟩)
  cases op with
  | createServiceOrder input traceparent =>
      exact hreturn ((CreateServiceOrder.execute_alone input traceparent db).post
        fun _ _ _ hreplay => Or.inr hreplay)
  | deliverOS osId => exact hreturn (DeliverOS.execute_alone osId db)
  | handle reply traceparent =>
      have htype : ServiceOrderSaga.readsCatalogue reply.type = false := by simpa [Op.alone] using hop
      exact hreturn (ServiceOrderSaga.handle_alone htype traceparent db)
  | handleFailedCommand command traceparent =>
      exact hreturn (ServiceOrderSaga.handleFailedCommand_alone command traceparent db)
  | _ => cases hop

/-- The service meets the rely–guarantee rule with the references locked, too. -/
theorem shared_relyGuarantee (G : ShopGuard) :
    RelyGuarantee postgres program G Shared (fun op result tx db =>
      Committed Shared (fun tx q v => G.stmt op tx q v = true) op result tx db ∧
        (op.alone = true → NoOrder tx.writes ∨
          (program op).Replays postgres db [] result tx.writes)) where
  conflicts_comm := Write.conflicts_comm
  refl := interference_shared.refl
  trans := interference_shared.trans
  launch op _ db := by
    have hcommitted := program_ensures (G := fun tx q v => G.stmt op tx q v = true)
      shopInterference_shared op db
    by_cases hop : op.alone = true
    · exact (hcommitted.and (program_alone hop db)).post fun _ _ _ hpost => ⟨hpost.1, fun _ => hpost.2⟩
    · exact hcommitted.post fun _ _ _ hpost => ⟨hpost, fun h => absurd h hop⟩
  commit _ _ _ _ _ hQ hclear := shared_of_commit hQ.1.advances hclear

end Runs

/-- Orders change as if by one unit of work at a time. In every interleaving of
any number of units of work, from any tables, a commit that opened an order,
delivered it, undid it for a dead command or took it one step by a reply (but
the two that copy the catalogue) returned and wrote what the same unit of work,
run alone on the tables just before that commit, returns and writes. -/
theorem commits_as_if_alone {G : ShopGuard} {db : Db} {n : ℕ} {s : ShopSys}
    (h : ShopReachable G (.start db n) s) {c : ShopCommit} (hc : c ∈ s.log)
    (hop : c.op.alone = true) {o : Uuid} {row : OrderRow}
    (hwrote : lastOrder c.tx.writes o = some row) :
    (program c.op).Replays postgres c.before [] c.result c.tx.writes := by
  have hall : ∀ c ∈ s.log, c.op.alone = true → NoOrder c.tx.writes ∨
      (program c.op).Replays postgres c.before [] c.result c.tx.writes := by
    refine h.log_induction (P := fun _ log => ∀ c ∈ log, c.op.alone = true →
      NoOrder c.tx.writes ∨ (program c.op).Replays postgres c.before [] c.result c.tx.writes)
      (shared_relyGuarantee G) rfl ?_ ?_
    · intro c hc
      cases hc
    · intro db log i op result tx hlog _ hQ c hc
      rcases List.mem_append.mp hc with hc | hc
      · exact hlog c hc
      · rw [List.mem_singleton.mp hc]
        exact hQ.2
  rcases hall c hc hop with hno | hreplay
  · rw [hno o] at hwrote
    cases hwrote
  · exact hreplay

/-- On a run that opens a second order, for the same parts, between the
statements of a reply about the first. -/
theorem reply_around_opening_as_if_alone : ∃ s c, (ShopSys.start).play postgres program .none
    (openingMoves ++ replyMoves 5 100 .diagnosisStarted [] 6 ++
      Label.session 6 (.createServiceOrder
        ⟨Uuid.text 0, Uuid.text 1, [Uuid.text 3], [⟨Uuid.text 2, 3⟩]⟩ none) 16 ++
      List.replicate 7 (.advance 5)) = some s ∧
    s.log[6]? = some c ∧ c.session = 5 ∧
    (program c.op).Replays postgres c.before [] c.result c.tx.writes := by
  have hplay : ((ShopSys.start).play postgres program .none
      (openingMoves ++ replyMoves 5 100 .diagnosisStarted [] 6 ++
        Label.session 6 (.createServiceOrder
          ⟨Uuid.text 0, Uuid.text 1, [Uuid.text 3], [⟨Uuid.text 2, 3⟩]⟩ none) 16 ++
        List.replicate 7 (.advance 5))).any (fun s => s.log[6]?.any fun c =>
          decide (c.session = 5) && c.op.alone && (lastOrder c.tx.writes 4).isSome) = true := by
    decide +kernel
  simp only [Option.any_eq_true, Bool.and_eq_true, decide_eq_true_eq] at hplay
  rcases hplay with ⟨s, hs, c, hc, ⟨hsession, hop⟩, hwrote⟩
  rcases Option.isSome_iff_exists.mp hwrote with ⟨row, hrow⟩
  exact ⟨s, c, hs, hc, hsession, commits_as_if_alone (reachable_of_play .init hs)
    (List.mem_of_getElem? hc) hop hrow⟩

end CarRepairShop
