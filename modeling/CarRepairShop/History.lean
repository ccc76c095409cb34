import CarRepairShop.Steps

/-! # The status history

Every committed change of status is a legal transition from the status
committed just before it, and the history records it, whatever the
interleaving. A unit of work checks the transition on an order it read some
time ago; what makes the check count is that the version it read is claimed
before anything is written, so the row it read is the row it replaces
(`OrderCommit.found`, `OrderCommit.expected`).

The invariant is carried commit by commit: `HistoryInvariant.commit` is the
step, `reachable_history` the run.
-/

namespace CarRepairShop

open Lib Txn

/-! ## Orders across a commit -/

section Across

variable {R : List Write → Db → Db → Prop} {G : ShopTx → Stmt → Db → Prop}
variable {op : Op} {tx : ShopTx} {db : Db}

/-- The case rule for the orders after a commit: an order that was not
written, the order that was opened, the order that was updated. -/
theorem OrderStep.orders {P Q : Uuid → OrderRow → Prop} (h : OrderStep R G op tx db)
    (hkept : ∀ o row, lastOrder tx.writes o = none → P o row → Q o row)
    (hopened : ∀ input o row message, OrderOpened R input o row message tx db → Q o row)
    (hupdated : ∀ o data expected r₀ r₁, OrderCommit o data expected r₀ r₁ tx db →
      (∀ b, data.status = some b → canTransition r₀.status b = true) →
      (data.budgetTotal ≠ none → r₀.status = .waitingApproval) → P o r₀ → Q o r₁)
    (hall : ∀ o row, db.orders.find? o = some row → P o row) :
    ∀ o row, (postgres.applyAll db tx.writes).orders.find? o = some row → Q o row := by
  intro o row hrow
  rw [applyAll_orders] at hrow
  cases hlast : lastOrder tx.writes o with
  | none =>
      rw [hlast, Option.none_or] at hrow
      exact hkept o row hlast (hall o row hrow)
  | some written =>
      rw [hlast, Option.some_or] at hrow
      have hwritten : written = row := Option.some.inj hrow
      subst hwritten
      cases h with
      | quiet horders _ _ _ =>
          rw [horders o] at hlast
          cases hlast
      | opened input o' row' message hopen =>
          by_cases ho : o = o'
          · subst ho
            have heq : row' = written := Option.some.inj (hopen.order.symm.trans hlast)
            subst heq
            exact hopened input o _ message hopen
          · rw [hopen.others o ho] at hlast
            cases hlast
      | updated o' data expected r₀ r₁ hcommit hlegal _ hbudget _ =>
          by_cases ho : o = o'
          · subst ho
            have heq : r₁ = written := Option.some.inj (hcommit.order.symm.trans hlast)
            subst heq
            exact hupdated o data expected r₀ _ hcommit hlegal hbudget (hall o r₀ hcommit.found)
          · rw [hcommit.others o ho] at hlast
            cases hlast

/-- A claim that was lost is never part of a commit. -/
theorem OrderStep.claims_won (h : OrderStep R G op tx db) : ∀ c ∈ claims tx.trace, c.count = 1 := by
  intro c hc
  cases h with
  | quiet _ _ hclaims _ =>
      rw [hclaims] at hc
      cases hc
  | opened _ _ _ _ hopen =>
      rw [hopen.claims] at hc
      cases hc
  | updated _ _ _ _ _ hcommit _ _ _ _ =>
      rw [hcommit.claims] at hc
      rw [List.mem_singleton.mp hc]

end Across

/-! ## One update -/

/-- The history of an order accounts for its status: it starts with the
opening, each row goes on from the one before, each is a legal transition, and
the last is the status the order has. -/
structure OrderRow.Accounted (row : OrderRow) : Prop where
  opening : ∃ t rest, row.history = { fromStatus := none, toStatus := .received, changedAt := t } :: rest
  chain : Chain none row.history row.status
  legal : ∀ c ∈ row.history, ∀ a, c.fromStatus = some a → canTransition a c.toStatus = true
  path : pathOf row.history ∈ lives

/-- What a commit does to an order that was there. -/
inductive OrderChange (r₀ r₁ : OrderRow) : Prop where
  | kept (same : r₁ = r₀)
  | revised (version : r₁.version = r₀.version + 1) (status : r₁.status = r₀.status)
      (history : r₁.history = r₀.history)
  | moved (version : r₁.version = r₀.version + 1)
      (legal : canTransition r₀.status r₁.status = true)
      (history : ∃ t, r₁.history = r₀.history ++
        [{ fromStatus := some r₀.status, toStatus := r₁.status, changedAt := t }])

theorem canTransition_ne {a b : OSStatus} (h : canTransition a b = true) : b ≠ a := by
  rintro rfl
  cases b <;> simp [canTransition, validTransitions] at h

/-- An update is a change of the order, legal when it sets the status. -/
theorem Revision.change {data : ServiceOrderChanges} {r₀ r₁ : OrderRow} (h : Revision data r₀ r₁)
    (hlegal : ∀ b, data.status = some b → canTransition r₀.status b = true) :
    OrderChange r₀ r₁ := by
  have hstatus := h.status
  rcases h.history with ⟨t, hhistory⟩
  cases hs : data.status with
  | none =>
      rw [hs] at hstatus hhistory
      exact .revised h.version hstatus (by rw [hhistory, statusChange, List.append_nil])
  | some b =>
      rw [hs] at hstatus hhistory
      have hb : r₁.status = b := hstatus
      refine .moved h.version ?_ ⟨t, ?_⟩
      · rw [hb]
        exact hlegal b hs
      · rw [hhistory, hb]
        simp [statusChange, canTransition_ne (hlegal b hs)]

theorem OrderOpened.accounted {R : List Write → Db → Db → Prop} {input : CreateServiceOrderInput}
    {o : Uuid} {row : OrderRow} {message : OutboxRow} {tx : ShopTx} {db : Db}
    (h : OrderOpened R input o row message tx db) : row.Accounted := by
  rcases h.history with ⟨t, hhistory⟩
  constructor
  · exact ⟨t, [], hhistory⟩
  · rw [hhistory, h.status]
    exact .last none _ rfl
  · intro c hc a ha
    rw [hhistory, List.mem_singleton] at hc
    rw [hc] at ha
    cases ha
  · rw [hhistory]
    show [OSStatus.received] ∈ lives
    decide

/-- A change keeps the history accounting for the status. -/
theorem OrderRow.Accounted.change {r₀ r₁ : OrderRow} (h : r₀.Accounted) (hc : OrderChange r₀ r₁) :
    r₁.Accounted := by
  cases hc with
  | kept hsame =>
      rw [hsame]
      exact h
  | revised _ hstatus hhistory =>
      constructor
      · rw [hhistory]
        exact h.opening
      · rw [hhistory, hstatus]
        exact h.chain
      · rw [hhistory]
        exact h.legal
      · rw [hhistory]
        exact h.path
  | moved _ hlegal hhistory =>
      rcases hhistory with ⟨t, hhistory⟩
      constructor
      · rcases h.opening with ⟨t₀, rest, hopening⟩
        rw [hhistory, hopening]
        exact ⟨t₀, _, rfl⟩
      · rw [hhistory]
        exact h.chain.snoc rfl
      · intro c hc a ha
        rw [hhistory] at hc
        rcases List.mem_append.mp hc with hc | hc
        · exact h.legal c hc a ha
        · rw [List.mem_singleton.mp hc] at ha ⊢
          cases ha
          exact hlegal
      · have hsnoc : pathOf r₁.history = pathOf r₀.history ++ [r₁.status] := by
          rw [hhistory]
          simp [pathOf]
        rw [hsnoc]
        exact lives_move h.path h.chain.getLast hlegal

/-- A history only grows. -/
theorem OrderChange.path {r₀ r₁ : OrderRow} (h : OrderChange r₀ r₁) :
    ∃ rest, pathOf r₁.history = pathOf r₀.history ++ rest := by
  cases h with
  | kept hsame => exact ⟨[], by rw [hsame, List.append_nil]⟩
  | revised _ _ hhistory => exact ⟨[], by rw [hhistory, List.append_nil]⟩
  | moved _ _ hhistory =>
      rcases hhistory with ⟨t, hhistory⟩
      exact ⟨[r₁.status], by rw [hhistory]; simp [pathOf]⟩

/-- What a commit makes of an order that was there. -/
theorem OrderStep.change {R : List Write → Db → Db → Prop} {G : ShopTx → Stmt → Db → Prop} {op : Op}
    {tx : ShopTx} {db : Db} (h : OrderStep R G op tx db) {o : Uuid} {r₀ : OrderRow}
    (h₀ : db.orders.find? o = some r₀) :
    ∃ r₁, (postgres.applyAll db tx.writes).orders.find? o = some r₁ ∧ OrderChange r₀ r₁ := by
  have hsome : ∃ r₁, (postgres.applyAll db tx.writes).orders.find? o = some r₁ := by
    rw [applyAll_orders, h₀]
    cases lastOrder tx.writes o with
    | none => exact ⟨r₀, rfl⟩
    | some r => exact ⟨r, rfl⟩
  rcases hsome with ⟨r₁, h₁⟩
  refine ⟨r₁, h₁, ?_⟩
  refine h.orders (P := fun o row => db.orders.find? o = some row)
    (Q := fun o row => ∀ r, db.orders.find? o = some r → OrderChange r row) ?_ ?_ ?_
    (fun o row hrow => hrow) o r₁ h₁ r₀ h₀
  · intro o row _ hrow r hr
    exact .kept (Option.some.inj (hrow.symm.trans hr))
  · intro input o row message hopen r hr
    rw [hopen.isNew] at hr
    cases hr
  · intro o data expected q₀ q₁ hcommit hlegal _ hrow r hr
    have heq : q₀ = r := Option.some.inj (hrow.symm.trans hr)
    rw [← heq]
    exact hcommit.revision.change hlegal

/-! ## Every run -/

/-- A commit that updates order `o`: it writes the order, which was there. -/
def updates (o : Uuid) (c : ShopCommit) : Bool :=
  (c.before.orders.find? o).isSome && (lastOrder c.tx.writes o).isSome

/-- What holds of the committed tables and the commits so far. -/
structure HistoryInvariant (db : Db) (log : List ShopCommit) : Prop where
  accounted : ∀ o row, db.orders.find? o = some row → row.Accounted
  version : ∀ o row, db.orders.find? o = some row → row.version = log.countP (updates o)
  unopened : ∀ o, db.orders.find? o = none → log.countP (updates o) = 0
  changes : ∀ c ∈ log, ∀ o r₀ r₁, c.before.orders.find? o = some r₀ →
    (c.after postgres).orders.find? o = some r₁ → OrderChange r₀ r₁
  won : ∀ c ∈ log, ∀ cl ∈ claims c.tx.trace, cl.count = 1

theorem HistoryInvariant.start : HistoryInvariant {} [] where
  accounted := by
    intro o row h
    cases h
  version := by
    intro o row h
    cases h
  unopened := by
    intro o _
    rfl
  changes := by
    intro c hc
    cases hc
  won := by
    intro c hc
    cases hc

section Invariant

variable {R : List Write → Db → Db → Prop} {G : ShopTx → Stmt → Db → Prop}
variable {op : Op} {tx : ShopTx} {db : Db} {log : List ShopCommit}

/-- The step: every commit keeps the invariant. -/
theorem HistoryInvariant.commit (h : HistoryInvariant db log) (hstep : OrderStep R G op tx db)
    (i : ℕ) (result : Outcome) :
    HistoryInvariant (postgres.applyAll db tx.writes) (log ++ [⟨i, op, result, tx, db⟩]) := by
  have hcount : ∀ o, (log ++ [(⟨i, op, result, tx, db⟩ : ShopCommit)]).countP (updates o)
      = log.countP (updates o) +
        if (db.orders.find? o).isSome && (lastOrder tx.writes o).isSome then 1 else 0 := by
    intro o
    rw [List.countP_append, List.countP_singleton]
    rfl
  constructor
  · refine hstep.orders (fun _ _ _ hrow => hrow) ?_ ?_ h.accounted
    · intro input o row message hopen
      exact hopen.accounted
    · intro o data expected r₀ r₁ hcommit hlegal _ hacc
      exact hacc.change (hcommit.revision.change hlegal)
  · refine hstep.orders (P := fun o row => row.version = log.countP (updates o) ∧
      db.orders.find? o = some row) ?_ ?_ ?_ ?_
    · intro o row hlast hrow
      rw [hcount o, hlast, hrow.1]
      simp
    · intro input o row message hopen
      rw [hcount o, hopen.isNew, hopen.version, h.unopened o hopen.isNew]
      rfl
    · intro o data expected r₀ r₁ hcommit _ _ hrow
      rw [hcount o, hcommit.found, hcommit.order, hcommit.revision.version, hrow.1]
      rfl
    · intro o row hrow
      exact ⟨h.version o row hrow, hrow⟩
  · intro o hnone
    rw [applyAll_orders, Option.or_eq_none_iff] at hnone
    rw [hcount o, hnone.1, hnone.2, h.unopened o hnone.2]
    rfl
  · intro c hc o r₀ r₁ h₀ h₁
    rcases List.mem_append.mp hc with hc | hc
    · exact h.changes c hc o r₀ r₁ h₀ h₁
    · rw [List.mem_singleton.mp hc] at h₀ h₁
      rcases hstep.change h₀ with ⟨r, hr, hchange⟩
      have heq : r = r₁ := Option.some.inj (hr.symm.trans h₁)
      rw [← heq]
      exact hchange
  · intro c hc
    rcases List.mem_append.mp hc with hc | hc
    · exact h.won c hc
    · rw [List.mem_singleton.mp hc]
      exact hstep.claims_won

end Invariant

/-- The run: the invariant holds in every state the service reaches, on any
number of replicas and under any guard. -/
theorem reachable_history {G : ShopGuard} {s : ShopSys} (h : ShopReachable G (.start) s) :
    HistoryInvariant s.db s.log := by
  refine h.log_induction (shop_relyGuarantee G) rfl .start ?_
  intro db log i op result tx hinv _ hQ
  exact hinv.commit hQ.step i result

/-- A session that lost a claim cannot commit: whatever it does next leaves
the committed tables as they were. -/
theorem lost_claim_commits_nothing {G : ShopGuard} {s s' : ShopSys} (h : ShopReachable G (.start) s)
    {i : ℕ} {op : Op} {p : Work Outcome} {tx : ShopTx}
    (hi : s.sessions[i]? = some (.running op p tx))
    (hlost : ∃ cl ∈ claims tx.trace, cl.count = 0) {l : Label Op} (hl : l = .advance i ∨ l = .crash i)
    (hstep : s.step postgres program l = some s') : s'.db = s.db ∧ s'.log = s.log := by
  rcases hl with rfl | rfl
  · simp only [Sys.step, hi] at hstep
    cases p with
    | pure a =>
        -- a commit keeps its promise, and so has won every claim
        have hsess := h.sessions (shop_relyGuarantee G) rfl
        have hQ := hsess.ensures i op _ tx hi s.db (Rely.refl _ _)
        rcases hlost with ⟨cl, hcl, hzero⟩
        have hone := hQ.step.claims_won cl hcl
        omega
    | throw e =>
        cases hstep
        exact ⟨rfl, rfl⟩
    | draw k =>
        cases hstep
        exact ⟨rfl, rfl⟩
    | clock k =>
        cases hstep
        exact ⟨rfl, rfl⟩
    | stmt q refused k =>
        simp only [Sys.advance] at hstep
        split at hstep
        · cases hstep
          exact ⟨rfl, rfl⟩
        · split at hstep
          · cases hstep
          · cases hstep
            exact ⟨rfl, rfl⟩
  · simp only [Sys.step, hi] at hstep
    cases hstep
    exact ⟨rfl, rfl⟩

/-- For every interleaving of any number of units of work: the history of each
order starts with its opening, goes on without a gap, holds legal transitions
only and ends at the status the order has; its version counts its committed
updates; every commit leaves each order as it was or changes it by a legal
transition that it records; and an update that loses its claim changes
nothing, then or later. -/
theorem history_records_every_change {s : ShopSys} (h : ShopReachable .none (.start) s) :
    (∀ o row, s.db.orders.find? o = some row →
      row.Accounted ∧ row.version = s.log.countP (updates o)) ∧
    (∀ c ∈ s.log, ∀ o r₀ r₁, c.before.orders.find? o = some r₀ →
      (c.after postgres).orders.find? o = some r₁ → OrderChange r₀ r₁) ∧
    (∀ c ∈ s.log, ∀ cl ∈ claims c.tx.trace, cl.count = 1) ∧
    ∀ i op p tx, s.sessions[i]? = some (.running op p tx) →
      (∃ cl ∈ claims tx.trace, cl.count = 0) → ∀ l, l = .advance i ∨ l = .crash i →
        ∀ s', s.step postgres program l = some s' → s'.db = s.db ∧ s'.log = s.log := by
  have hinv := reachable_history h
  refine ⟨?_, hinv.changes, hinv.won, ?_⟩
  · intro o row hrow
    exact ⟨hinv.accounted o row hrow, hinv.version o row hrow⟩
  · intro i op p tx hi hlost l hl s' hstep
    exact lost_claim_commits_nothing h hi hlost hl hstep

/-- On a run that opens an order, diagnoses it and edits it meanwhile. -/
theorem history_of_first_order : ∃ s row,
    (ShopSys.start).play postgres program .none (openingMoves ++
      replyMoves 5 100 .diagnosisStarted [] 13 ++
      Label.session 6 (.addItemToOS (Uuid.text 4) (Uuid.text 2) 3) 13 ++
      replyMoves 7 101 .diagnosisCompleted [] 19) = some s ∧
    s.db.orders.find? 4 = some row ∧ row.status = .waitingApproval ∧ row.Accounted ∧
    row.version = s.log.countP (updates 4) := by
  have hplay : (((ShopSys.start).play postgres program .none (openingMoves ++
      replyMoves 5 100 .diagnosisStarted [] 13 ++
      Label.session 6 (.addItemToOS (Uuid.text 4) (Uuid.text 2) 3) 13 ++
      replyMoves 7 101 .diagnosisCompleted [] 19)).bind
        fun s => (s.db.orders.find? 4).map (·.status)) = some .waitingApproval := by
    decide +kernel
  rcases Option.bind_eq_some_iff.mp hplay with ⟨s, hs, hrow⟩
  rcases Option.map_eq_some_iff.mp hrow with ⟨row, hrow, hstatus⟩
  have hall := (history_records_every_change (reachable_of_play .init hs)).1 4 row hrow
  exact ⟨s, row, hs, hrow, hstatus, hall⟩

end CarRepairShop
