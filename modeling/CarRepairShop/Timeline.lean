import CarRepairShop.TimelySpecs

/-! # The timeline of an order

In every state the service reaches, whatever the interleaving, the times of an
order come in the order of its history and only get more: each date lies between
the change of status before it and the change it belongs to, none is from the
future, and none is overwritten. The step is `Dated.timely`, the run
`Reachable.clocked`.
-/

namespace CarRepairShop

open Lib Txn Prog

section Commits

variable {R : List Write → Db → Db → Prop} {G : ShopTx → Stmt → Db → Prop}
variable {op : Op} {result : Outcome} {tx : ShopTx} {t : ℕ} {db : Db}

theorem Dated.timely {before : Option OrderRow} {row : OrderRow} (h : Dated t before row)
    (hacc : ∀ r₀, before = some r₀ → r₀.Accounted) :
    row.Timely t ∧ ∀ r₀, before = some r₀ → TimesGrow r₀ row := by
  cases h with
  | opened htimely =>
      refine ⟨htimely, fun r₀ h₀ => ?_⟩
      cases h₀
  | updated data n hrev hlegal hhistory hstamps hknown htime =>
      obtain ⟨htimely, hgrow⟩ := hknown.revise (hacc _ rfl) hrev hhistory hlegal hstamps
      refine ⟨htimely.later htime, fun r₀ h₀ => ?_⟩
      cases h₀
      exact hgrow

/-- The tables after a commit: every order is timely, and has the times it had. -/
theorem DatedTx.commit (h : DatedTx tx t db) (hI : TimelyTables t db) {o : Uuid} {row : OrderRow}
    (hrow : (postgres.applyAll db tx.writes).orders.find? o = some row) :
    row.Timely t ∧ ∀ r₀, db.orders.find? o = some r₀ → TimesGrow r₀ row := by
  rw [applyAll_orders] at hrow
  cases hlast : lastOrder tx.writes o with
  | none =>
      rw [hlast, Option.none_or] at hrow
      refine ⟨(hI o row hrow).2, fun r₀ h₀ => ?_⟩
      obtain rfl : row = r₀ := Option.some.inj (hrow.symm.trans h₀)
      exact ⟨⟨[], (List.append_nil _).symm⟩, fun _ _ hd => hd⟩
  | some written =>
      rw [hlast, Option.some_or] at hrow
      obtain rfl := Option.some.inj hrow
      exact (h o written hlast).timely fun r₀ h₀ => (hI o r₀ h₀).1

/-- The step: a commit keeps the tables timely. -/
theorem DatedTx.timelyTables (h : DatedTx tx t db) (hstep : OrderStep R G op tx db)
    (hI : TimelyTables t db) : TimelyTables t (postgres.applyAll db tx.writes) := by
  intro o row hrow
  refine ⟨?_, (h.commit hI hrow).1⟩
  refine hstep.orders (P := fun _ row => row.Accounted) (fun _ _ _ hacc => hacc) ?_ ?_
    (fun o row hrow => (hI o row hrow).1) o row hrow
  · intro input o row message hopen
    exact hopen.accounted
  · intro o data expected r₀ r₁ hcommit hlegal _ hacc
    exact hacc.change (hcommit.revision.change hlegal)

end Commits

/-- The service meets the rule for systems with a clock. -/
theorem shop_clocked : ClockedRelyGuarantee postgres program Rely TimelyTables
    fun op result tx t db => Committed Rely (fun _ _ _ => True) op result tx db ∧
      DatedTx tx t db where
  conflicts_comm := Write.conflicts_comm
  interference := interference_rely
  tick _ _ _ ht hI := hI.later ht
  launch op t db hI := by
    refine EnsuresAt.and (.of_ensures interference_rely ?_) (program_dated shopInterference_rely op hI)
    exact program_ensures shopInterference_rely op db
  commit op result tx t db hQ hI :=
    ⟨hQ.2.timelyTables hQ.1.step hI, fun ws hclear => rely_of_commit hQ.1.advances hclear⟩

/-- For every interleaving of any number of units of work, on a clock that never
goes back: the times of each order never decrease along its history and are not
from the future; it has a date for exactly the dated statuses it has been in;
and every commit leaves each order the times it had, and adds others only at the
end. -/
theorem timeline_only_grows {s : ShopSys} (h : ShopReachable .none .start s) :
    (∀ o row, s.db.orders.find? o = some row → row.Timely s.now) ∧
    ∀ c ∈ s.log, ∀ o r₀ r₁, c.before.orders.find? o = some r₀ →
      (c.after postgres).orders.find? o = some r₁ → TimesGrow r₀ r₁ := by
  have hinv := h.clocked shop_clocked rfl rfl fun o row hrow => by cases hrow
  refine ⟨fun o row hrow => (hinv.holds o row hrow).2, ?_⟩
  intro c hc o r₀ r₁ h₀ h₁
  obtain ⟨t, hI, -, hdated⟩ := hinv.commits c hc
  exact (hdated.commit hI h₁).2 r₀ h₀

/-- The whole life of the first order, with a millisecond before each change. -/
def lifeMoves : List (Label Op) :=
  List.flatten [openingMoves, .tick 1 :: replyMoves 5 100 .diagnosisStarted [] 13,
    .tick 1 :: replyMoves 6 101 .diagnosisCompleted [] 19,
    .tick 1 :: replyMoves 7 102 .budgetApproved [] 16,
    .tick 1 :: replyMoves 8 103 .paymentConfirmed [] 18,
    .tick 1 :: replyMoves 9 104 .repairStarted [] 14,
    .tick 1 :: replyMoves 10 105 .repairCompleted [] 14,
    .tick 1 :: Label.session 11 (.deliverOS (Uuid.text 4)) 12]

/-- On a run that delivers an order. -/
theorem timeline_of_delivered_order : ∃ s row,
    ShopSys.start.play postgres program .none lifeMoves = some s ∧
    s.db.orders.find? 4 = some row ∧ row.timeline = [0, 0, 1, 2, 3, 4, 5, 5, 6, 6, 7, 7] ∧
    row.Timely s.now := by
  have hplay : ((ShopSys.start.play postgres program .none lifeMoves).bind fun s =>
      s.db.orders.find? 4).map (·.timeline) = some [0, 0, 1, 2, 3, 4, 5, 5, 6, 6, 7, 7] := by
    decide +kernel
  rcases Option.map_eq_some_iff.mp hplay with ⟨row, hrow, htimeline⟩
  rcases Option.bind_eq_some_iff.mp hrow with ⟨s, hs, hrow⟩
  exact ⟨s, row, hs, hrow, htimeline,
    (timeline_only_grows (reachable_of_play .init hs)).1 4 row hrow⟩

end CarRepairShop
