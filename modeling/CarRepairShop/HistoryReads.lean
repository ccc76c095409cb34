import CarRepairShop.History
import CarRepairShop.Lib.OrderBy
import CarRepairShop.Queries

/-! # The history, read back

The history of an order goes on without a gap, in the order its changes were
committed (`HistoryInvariant`). `findStatusHistory` sorts it by `changed_at` alone,
which has milliseconds: changes of one millisecond may come in any order, and two
that follow each other are no chain the other way round.
-/

namespace CarRepairShop

open Lib Txn

theorem Chain.head {previous : Option OSStatus} {change : StatusChange} {rest : List StatusChange}
    {status : OSStatus} (h : Chain previous (change :: rest) status) :
    change.fromStatus = previous := by
  cases h with
  | last _ _ hfirst => exact hfirst
  | cons _ _ _ _ hfirst _ => exact hfirst

theorem Chain.tail {previous : Option OSStatus} {change : StatusChange} {rest : List StatusChange}
    {status : OSStatus} (h : Chain previous (change :: rest) status) (hrest : rest ≠ []) :
    Chain (some change.toStatus) rest status := by
  cases h with
  | last _ _ _ => exact absurd rfl hrest
  | cons _ _ _ _ _ htail => exact htail

/-- Of two changes that follow each other, the second does not go on from what the first went on
from. -/
theorem Chain.not_exchanged {previous : Option OSStatus} {before after : List StatusChange}
    {a b : StatusChange} {status status' : OSStatus}
    (h : Chain previous (before ++ a :: b :: after) status) (ha : a.fromStatus ≠ some a.toStatus) :
    ¬Chain previous (before ++ b :: a :: after) status' := by
  induction before generalizing previous with
  | nil =>
      intro hswapped
      have hnext : b.fromStatus = some a.toStatus := (h.tail (by simp)).head
      apply ha
      calc a.fromStatus = previous := h.head
        _ = b.fromStatus := hswapped.head.symm
        _ = some a.toStatus := hnext
  | cons first before ih =>
      intro hswapped
      exact ih (h.tail (by simp)) (hswapped.tail (by simp))

/-- No change leaves the status as it was. -/
theorem OrderRow.Accounted.moves {row : OrderRow} (h : row.Accounted) {change : StatusChange}
    (hc : change ∈ row.history) : change.fromStatus ≠ some change.toStatus := by
  intro hsame
  exact canTransition_ne (h.legal change hc _ hsame) rfl

/-- The history that is read starts with the opening, goes on without a gap and ends at the
status of the order. -/
def ReadsInOrder (orderBy : List StatusChange → List StatusChange) (osId : IdText) (db : Db)
    (status : OSStatus) : Prop :=
  ∃ history, ServiceOrderRepository.findStatusHistory orderBy osId db = .ok history ∧
    Chain none history status

theorem readsInOrder_iff {orderBy : List StatusChange → List StatusChange} {osId : IdText} {o : Uuid}
    (ho : osId.column? = some o) {db : Db} {row : OrderRow} (hrow : db.orders.find? o = some row)
    {status : OSStatus} :
    ReadsInOrder orderBy osId db status ↔ Chain none (orderBy row.history) status := by
  unfold ReadsInOrder ServiceOrderRepository.findStatusHistory
  simp [ho, hrow]

/-- In every state the service reaches, the history of an order whose times never decrease is read
back in the order it happened, whatever the database makes of equal times, exactly when no two
changes have the same time. -/
theorem history_read_in_order_iff {s : ShopSys} (h : ShopReachable .none (.start) s) {o : Uuid}
    {row : OrderRow} (hrow : s.db.orders.find? o = some row)
    (hclock : row.history.Pairwise fun c c' => c.changedAt ≤ c'.changedAt) {osId : IdText}
    (ho : osId.column? = some o) :
    (∀ orderBy, OrdersBy (fun c : StatusChange => c.changedAt) orderBy →
      ReadsInOrder orderBy osId s.db row.status) ↔
    (row.history.map fun c => c.changedAt).Nodup := by
  have haccounted := (reachable_history h).accounted o row hrow
  simp only [readsInOrder_iff ho hrow]
  refine forall_sort_iff (P := fun history => Chain none history row.status) hclock
    haccounted.chain ?_
  intro before a b after heq _
  have hchain := haccounted.chain
  rw [heq] at hchain
  refine hchain.not_exchanged (haccounted.moves ?_)
  rw [heq]
  simp

/-- The opening of the first order and its diagnosis, `d` milliseconds later. -/
def diagnosedAfter (d : ℕ) : List (Label Op) :=
  openingMoves ++ .tick d :: replyMoves 5 100 .diagnosisStarted [] 13

theorem diagnosedAfter_history (d : ℕ) (history : List StatusChange)
    (hplay : ((ShopSys.start.play postgres program .none (diagnosedAfter d)).bind fun s =>
      s.db.orders.find? 4).map (fun row => (row.status, row.history)) = some (.diagnosis, history)) :
    ∃ s row, ShopSys.start.play postgres program .none (diagnosedAfter d) = some s ∧
      s.db.orders.find? 4 = some row ∧ row.status = .diagnosis ∧ row.history = history := by
  rcases Option.map_eq_some_iff.mp hplay with ⟨row, hrow, heq⟩
  rcases Option.bind_eq_some_iff.mp hrow with ⟨s, hs, hrow⟩
  rw [Prod.mk.injEq] at heq
  exact ⟨s, row, hs, hrow, heq.1, heq.2⟩

/-- One millisecond later is late enough. -/
theorem later_diagnosis_read_in_order : ∃ s row,
    ShopSys.start.play postgres program .none (diagnosedAfter 1) = some s ∧
    s.db.orders.find? 4 = some row ∧
    ∀ orderBy, OrdersBy (fun c : StatusChange => c.changedAt) orderBy →
      ReadsInOrder orderBy (Uuid.text 4) s.db row.status := by
  rcases diagnosedAfter_history 1 [⟨none, .received, 0⟩, ⟨some .received, .diagnosis, 1⟩]
    (by decide +kernel) with ⟨s, row, hs, hrow, -, hhistory⟩
  refine ⟨s, row, hs, hrow, ?_⟩
  refine (history_read_in_order_iff (reachable_of_play .init hs) hrow ?_ rfl).mpr ?_
  · rw [hhistory]
    decide
  · rw [hhistory]
    decide

/-- In the same millisecond the diagnosis may come before the opening. -/
theorem same_millisecond_out_of_order : ∃ s row orderBy,
    ShopSys.start.play postgres program .none (diagnosedAfter 0) = some s ∧
    s.db.orders.find? 4 = some row ∧
    (row.history.Pairwise fun c c' => c.changedAt ≤ c'.changedAt) ∧
    OrdersBy (fun c : StatusChange => c.changedAt) orderBy ∧
    ServiceOrderRepository.findStatusHistory orderBy (Uuid.text 4) s.db
      = .ok [⟨some .received, .diagnosis, 0⟩, ⟨none, .received, 0⟩] ∧
    ¬ReadsInOrder orderBy (Uuid.text 4) s.db row.status := by
  rcases diagnosedAfter_history 0 [⟨none, .received, 0⟩, ⟨some .received, .diagnosis, 0⟩]
    (by decide +kernel) with ⟨s, row, hs, hrow, -, hhistory⟩
  have hanswer : Ordered (fun c : StatusChange => c.changedAt) row.history
      [⟨some .received, .diagnosis, 0⟩, ⟨none, .received, 0⟩] := by
    rw [hhistory]
    exact @Ordered.swap _ _ _ _ [] [] _ _ (by decide) rfl
  rcases hanswer.exists_sort with ⟨orderBy, hsort, hread⟩
  refine ⟨s, row, orderBy, hs, hrow, ?_, hsort, ?_, ?_⟩
  · rw [hhistory]
    decide
  · unfold ServiceOrderRepository.findStatusHistory
    simp [hrow, hread]
  · rw [readsInOrder_iff rfl hrow, hread]
    intro hchain
    cases hchain.head

end CarRepairShop
