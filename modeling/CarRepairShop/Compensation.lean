import CarRepairShop.OutboxPath

/-! # Compensation

When an order is cancelled, the steps the participants have done are to be
undone: the budget if there is one, the diagnosis if it was started. The
commands of a cancellation are chosen by the status the order leaves, or for a
dead command by its type. For the diagnosis that is enough. For the budget it
is not: a `GenerateBudget` that is found dead after its budget had already been
generated cancels the order and leaves the budget standing. That one case is
`CancelsBudgeted`, and `compensation_complete_iff` says it is the only one.
-/

namespace CarRepairShop

open Lib Txn

/-! ## What is owed -/

/-- Order `o` was sent for diagnosis: a `DiagnosisStarted` about it was applied. -/
def StartsDiagnosis (o : Uuid) (c : ShopCommit) : Prop :=
  ∃ reply traceparent, c.op = .handle reply traceparent ∧ reply.type = .diagnosisStarted ∧
    reply.serviceOrderId.column? = some o ∧ c.result.handled = some .applied

/-- Where `c` cancels an order whose budget was generated, it cancels the
budget. -/
def CancelsBudget (c : ShopCommit) : Prop :=
  ∀ o r₀ r₁, Moves c o r₀ r₁ → r₁.status = .cancelled → r₀.budgetTotal ≠ none →
    Sends c o .cancelBudget

/-- Where `c`, after the commits `earlier`, ends an order whose diagnosis was
started, it cancels the execution. -/
def CancelsDiagnosis (earlier : List ShopCommit) (c : ShopCommit) : Prop :=
  ∀ o r₀ r₁, Moves c o r₀ r₁ → r₁.status = .cancelled ∨ r₁.status = .rejected →
    (∃ d ∈ earlier, StartsDiagnosis o d) → Sends c o .cancelExecution

/-- Every commit of a log cancels what was done before it. -/
def Compensated (log : List ShopCommit) : Prop :=
  ∀ earlier c later, log = earlier ++ c :: later → CancelsBudget c ∧ CancelsDiagnosis earlier c

/-- The commit handles a dead `GenerateBudget` by claiming an order whose
budget was generated. -/
def CancelsBudgeted (c : ShopCommit) : Prop :=
  ∃ command traceparent, c.op = .handleFailedCommand command traceparent ∧
    command.type = .generateBudget ∧ ∃ cl ∈ claims c.tx.trace, ∃ r₀,
      c.before.orders.find? cl.order = some r₀ ∧ r₀.budgetTotal ≠ none

/-! ## One commit -/

section Step

variable {R : List Write → Db → Db → Prop} {G : ShopTx → Stmt → Db → Prop}
variable {op : Op} {result : Outcome} {tx : ShopTx} {db : Db}

/-- An update that sets no status, or another one, does not cancel. -/
theorem OrderCommit.not_cancelled {o o' : Uuid} {data : ServiceOrderChanges} {expected : Option ℕ}
    {r₀ r₁ r r' : OrderRow} (h : OrderCommit o data expected r₀ r₁ tx db)
    (hdata : data.status ≠ some .cancelled) (hr : db.orders.find? o' = some r)
    (hr' : lastOrder tx.writes o' = some r') (hstatus : r'.status ≠ r.status) :
    r'.status ≠ .cancelled := by
  rcases h.written hr' with ⟨rfl, rfl⟩
  have heq : r₀ = r := Option.some.inj (h.found.symm.trans hr)
  subst heq
  have hs := h.revision.status
  cases hd : data.status with
  | none =>
      rw [hd] at hs
      exact absurd hs hstatus
  | some b =>
      rw [hd] at hs hdata
      rw [hs]
      intro hb
      exact hdata (congrArg some hb)

section Waiting

variable {o : Uuid} {r r' : OrderRow}

/-- No reply cancels an order that waits for approval: `PaymentFailed`, the only
one that cancels, is expected later. -/
theorem ReplyApplied.not_cancelled_waiting {reply : SagaReply} {m o' : Uuid}
    (h : ReplyApplied R G reply m o' tx db) (hr : db.orders.find? o = some r)
    (hr' : lastOrder tx.writes o = some r') (hwaiting : r.status = .waitingApproval) :
    r'.status ≠ .cancelled := by
  intro hcancelled
  have hstatus : r'.status ≠ r.status := by
    rw [hwaiting, hcancelled]
    decide
  unfold ReplyApplied at h
  cases hreaction : replyReaction reply.type with
  | none =>
      rw [hreaction] at h
      rw [OnlyRecorded.orders h o] at hr'
      cases hr'
  | some reaction =>
      rw [hreaction] at h
      rcases h with ⟨data, r₀, r₁, hperf, hexpected, -⟩
      by_cases htype : reply.type = .paymentFailed
      · -- expected in `APPROVED` only
        rcases hperf.commit.written hr' with ⟨rfl, rfl⟩
        have heq : r₀ = r := Option.some.inj (hperf.commit.found.symm.trans hr)
        rw [htype, heq, hwaiting] at hexpected
        simp [ServiceOrderSaga.expectedStatus] at hexpected
      · refine hperf.commit.not_cancelled ?_ hr hr' hstatus hcancelled
        -- the other reactions move the order elsewhere, or not at all
        rw [hperf.status]
        intro hs
        cases hreply : reply.type <;> rw [hreply] at hreaction htype <;>
          first
          | (cases hreaction; done)
          | (cases hreaction; cases hs; done)
          | exact htype rfl

/-- The only command whose death is expected of an order that waits for approval. -/
theorem FailureApplied.of_waiting {command : FailedSagaCommand} {m o' : Uuid}
    (h : FailureApplied R G command m o' tx db) (hr : db.orders.find? o = some r)
    (hr' : lastOrder tx.writes o = some r') (hwaiting : r.status = .waitingApproval) :
    command.type = .generateBudget := by
  unfold FailureApplied at h
  cases hreaction : failedCommandReaction command.type with
  | none =>
      rw [hreaction] at h
      rw [OnlyRecorded.orders h o] at hr'
      cases hr'
  | some reaction =>
      rw [hreaction] at h
      rcases h with ⟨data, r₀, r₁, hperf, hadmits, -⟩
      rcases hperf.commit.written hr' with ⟨rfl, rfl⟩
      have heq : r₀ = r := Option.some.inj (hperf.commit.found.symm.trans hr)
      rw [heq, hwaiting] at hadmits
      -- the others are due in another status, or react to nothing
      cases hcommand : command.type <;> rw [hcommand] at hadmits hreaction <;>
        first
        | rfl
        | (cases hreaction; done)
        | simp [ServiceOrderSaga.failedCommand, ServiceOrderSaga.Expected.admits] at hadmits

/-- Only a dead `GenerateBudget` cancels an order that waits for approval. -/
theorem Committed.cancelled_waiting (h : Committed R G op result tx db)
    (hr : db.orders.find? o = some r) (hr' : lastOrder tx.writes o = some r')
    (hwaiting : r.status = .waitingApproval) (hcancelled : r'.status = .cancelled) :
    ∃ command traceparent, op = .handleFailedCommand command traceparent ∧
      command.type = .generateBudget := by
  have hstatus : r'.status ≠ r.status := by
    rw [hwaiting, hcancelled]
    decide
  cases op with
  | createServiceOrder input traceparent =>
      rcases h with ⟨o', row, message, hopen⟩
      by_cases ho : o = o'
      · subst ho
        rw [hopen.isNew] at hr
        cases hr
      · rw [hopen.others o ho] at hr'
        cases hr'
  -- the editors and the delivery set no status, or another one
  | addItemToOS osId itemId quantity =>
      rcases h with ⟨o', i, ids, lines, r₀, r₁, ws, -, hadd⟩
      exact absurd hcancelled (hadd.edited.commit.not_cancelled (by simp) hr hr' hstatus)
  | removeItemFromOS osId itemId =>
      rcases h with ⟨o', line, ids, lines, r₀, r₁, ws, -, hrem⟩
      exact absurd hcancelled (hrem.edited.commit.not_cancelled (by simp) hr hr' hstatus)
  | addServiceToOS osId serviceId =>
      rcases h with ⟨o', ids, lines, r₀, r₁, -, hadd⟩
      exact absurd hcancelled (hadd.edited.commit.not_cancelled (by simp) hr hr' hstatus)
  | removeServiceFromOS osId serviceId =>
      rcases h with ⟨o', ids, lines, r₀, r₁, -, hrem⟩
      exact absurd hcancelled (hrem.edited.commit.not_cancelled (by simp) hr hr' hstatus)
  | deliverOS osId =>
      rcases h with ⟨o', r₀, r₁, data, -, hcommit, -, -, hdata, -⟩
      exact absurd hcancelled (hcommit.not_cancelled (by rw [hdata]; simp) hr hr' hstatus)
  | handle reply traceparent =>
      rcases h with ⟨res, -, hproc⟩
      rcases hproc.effect hr' with ⟨-, m, o', -, -, heff⟩
      exact absurd hcancelled (heff.not_cancelled_waiting hr hr' hwaiting)
  | handleFailedCommand command traceparent =>
      rcases h with ⟨res, -, hproc⟩
      rcases hproc.effect hr' with ⟨-, m, o', -, -, heff⟩
      exact ⟨command, traceparent, rfl, heff.of_waiting hr hr' hwaiting⟩
  -- what is left writes no order
  | createItem name price stockQuantity =>
      rw [h.1.orders o] at hr'
      cases hr'
  | updateItem id data =>
      rw [h.1.orders o] at hr'
      cases hr'
  | deleteItem id =>
      rw [h.1.orders o] at hr'
      cases hr'
  | _ =>
      rw [h.1.order o] at hr'
      cases hr'

end Waiting

/-- A dead `GenerateBudget` that claims a budgeted order leaves its budget. -/
theorem Committed.leaves_budget {i : ℕ} (h : Committed R G op result tx db)
    (hbad : CancelsBudgeted ⟨i, op, result, tx, db⟩) : ¬ CancelsBudget ⟨i, op, result, tx, db⟩ := by
  rcases hbad with ⟨command, traceparent, hop, htype, cl, hcl, r, hr, hbudget⟩
  have hop' : op = .handleFailedCommand command traceparent := hop
  have hr' : db.orders.find? cl.order = some r := hr
  subst hop'
  rcases h with ⟨res, -, hproc⟩
  generalize res.outcome = outcome at hproc
  cases hproc with
  | duplicate m hm _ _ hclaims =>
      rw [hclaims] at hcl
      cases hcl
  | ignored m hm _ honly _ =>
      rw [honly.claims] at hcl
      cases hcl
  | applied m o hm _ ho _ heff =>
      unfold FailureApplied at heff
      rw [htype] at heff
      rcases heff with ⟨data, r₀, r₁, hperf, hadmits, -⟩
      rw [hperf.commit.claims, List.mem_singleton] at hcl
      rw [hcl] at hr'
      have heq : r₀ = r := Option.some.inj (hperf.commit.found.symm.trans hr')
      subst heq
      have hwaiting : r₀.status = .waitingApproval := by
        simpa [ServiceOrderSaga.failedCommand, ServiceOrderSaga.Expected.admits] using hadmits
      have hcancelled : r₁.status = .cancelled := by
        rw [hperf.commit.revision.status, hperf.status]
        rfl
      intro hcancels
      have hmoves : Moves ⟨i, .handleFailedCommand command traceparent, result, tx, db⟩ o r₀ r₁ := by
        refine ⟨hr', ?_, by rw [hcancelled, hwaiting]; decide⟩
        show (postgres.applyAll db tx.writes).orders.find? o = some r₁
        rw [applyAll_orders, hperf.commit.order]
        rfl
      rcases hcancels o r₀ r₁ hmoves hcancelled hbudget with ⟨message, hmem, -, hmtype⟩
      -- of the two cancel commands the reaction stores `CancelExecution` alone
      have htypes : message.type ∈ (stored tx.writes).map (·.type) := List.mem_map_of_mem hmem
      rw [commands_types hperf.stored, hmtype] at htypes
      exact absurd htypes (by decide)

/-- Elsewhere a commit that cancels a budgeted order cancels its budget. -/
theorem Committed.cancels_budget {i : ℕ} (h : Committed R G op result tx db)
    (hnone : ∀ o row, db.orders.find? o = some row →
      row.status = .received ∨ row.status = .diagnosis → row.budgetTotal = none)
    (hgood : ¬ CancelsBudgeted ⟨i, op, result, tx, db⟩) : CancelsBudget ⟨i, op, result, tx, db⟩ := by
  intro o r₀ r₁ hm hcancelled hbudget
  rcases h.step.moves hm with ⟨hlast, hlegal, hclaimed, hsends⟩
  rw [hcancelled] at hlegal hsends
  cases hstatus : r₀.status <;> rw [hstatus] at hlegal hsends <;>
    first
    | (simp [canTransition, validTransitions] at hlegal; done)
    | skip
  -- before the approval no budget was saved
  case received => exact absurd (hnone o r₀ hm.before (Or.inl hstatus)) hbudget
  case waitingApproval =>
    -- the order waits for approval: only the dead command gets here
    exfalso
    apply hgood
    obtain ⟨command, traceparent, hop, htype⟩ :=
      h.cancelled_waiting hm.before hlast hstatus hcancelled
    rcases hclaimed with ⟨cl, hcl, hclo⟩
    refine ⟨command, traceparent, hop, htype, cl, hcl, r₀, ?_, hbudget⟩
    rw [hclo]
    exact hm.before
  -- an approved order has a budget, and the move cancels it
  case approved => exact hsends .cancelBudget (by decide)

/-- A started diagnosis is always called off. -/
theorem OrderStep.cancels_diagnosis {i : ℕ} {log : List ShopCommit} (h : OrderStep R G op tx db)
    (haccounted : ∀ o row, db.orders.find? o = some row → row.Accounted)
    (hstarted : ∀ o, (∃ c ∈ log, StartsDiagnosis o c) →
      ∃ row, db.orders.find? o = some row ∧ .diagnosis ∈ pathOf row.history) :
    CancelsDiagnosis log ⟨i, op, result, tx, db⟩ := by
  intro o r₀ r₁ hm hended hdiagnosis
  rcases h.moves hm with ⟨hlast, hlegal, -, hsends⟩
  rcases hstarted o hdiagnosis with ⟨row, hrow, hpath⟩
  have heq : row = r₀ := Option.some.inj (hrow.symm.trans hm.before)
  subst heq
  have hacc := haccounted o row hrow
  have hnot : row.status ≠ .received := by
    -- no path that has been through `DIAGNOSIS` is back at `RECEIVED`
    have hall : ∀ path ∈ lives, .diagnosis ∈ path → path.getLast? ≠ some OSStatus.received := by
      decide
    intro hreceived
    apply hall _ hacc.path hpath
    rw [hacc.chain.getLast, hreceived]
  apply hsends
  rcases hended with hended | hended <;> rw [hended] at hlegal ⊢ <;>
    cases hstatus : row.status <;> rw [hstatus] at hlegal hnot <;>
    first
    | (simp [canTransition, validTransitions] at hlegal; done)
    | decide
    | exact absurd rfl hnot

/-! ## Every run -/

/-- What holds of the committed tables and the commits so far. -/
structure CompensationInvariant (db : Db) (log : List ShopCommit) : Prop where
  history : HistoryInvariant db log
  unbudgeted : ∀ o row, db.orders.find? o = some row →
    row.status = .received ∨ row.status = .diagnosis → row.budgetTotal = none
  started : ∀ o, (∃ c ∈ log, StartsDiagnosis o c) →
    ∃ row, db.orders.find? o = some row ∧ .diagnosis ∈ pathOf row.history
  budget : ∀ c ∈ log, CancelsBudget c ↔ ¬ CancelsBudgeted c
  diagnosis : ∀ earlier c later, log = earlier ++ c :: later → CancelsDiagnosis earlier c

theorem CompensationInvariant.start : CompensationInvariant {} [] where
  history := .start
  unbudgeted := by
    intro o row h
    cases h
  started := by
    rintro o ⟨c, hc, -⟩
    cases hc
  budget := by
    intro c hc
    cases hc
  diagnosis := by
    intro earlier c later h
    simp at h

/-- An applied `DiagnosisStarted` leaves its mark on the path. -/
theorem Committed.starts_diagnosis {i : ℕ} {o : Uuid} (h : Committed R G op result tx db)
    (hstarts : StartsDiagnosis o ⟨i, op, result, tx, db⟩) :
    ∃ row, (postgres.applyAll db tx.writes).orders.find? o = some row ∧
      .diagnosis ∈ pathOf row.history := by
  rcases hstarts with ⟨reply, traceparent, hop, htype, ho, hres⟩
  have hop' : op = .handle reply traceparent := hop
  subst hop'
  rcases h with ⟨res, rfl, hproc⟩
  have hout : res.outcome = .applied := Option.some.inj hres
  rw [hout] at hproc
  cases hproc with
  | applied m o' hm _ ho' _ heff =>
      have hoo : o' = o := Option.some.inj (ho'.symm.trans ho)
      subst hoo
      unfold ReplyApplied at heff
      rw [htype] at heff
      rcases heff with ⟨data, r₀, r₁, hperf, hexpected, -⟩
      refine ⟨r₁, ?_, ?_⟩
      · rw [applyAll_orders, hperf.commit.order]
        rfl
      · rcases hperf.commit.revision.history with ⟨t, hhistory⟩
        have hreceived : r₀.status = .received := by
          simpa [ServiceOrderSaga.expectedStatus] using hexpected
        rw [hhistory, hperf.status, hreceived]
        simp [pathOf, statusChange]

/-- A log with one more commit, split at any place. -/
theorem split_snoc {α : Type} {log earlier later : List α} {c last : α}
    (h : log ++ [last] = earlier ++ c :: later) :
    (earlier = log ∧ c = last) ∨ ∃ rest, log = earlier ++ c :: rest := by
  rcases List.eq_nil_or_concat later with rfl | ⟨rest, x, rfl⟩
  · rcases List.append_inj' h rfl with ⟨hlog, hlast⟩
    exact Or.inl ⟨hlog.symm, (List.cons.inj hlast).1.symm⟩
  · right
    refine ⟨rest, ?_⟩
    rw [List.concat_eq_append, ← List.cons_append, ← List.append_assoc] at h
    exact (List.append_inj' h rfl).1

/-- The step. -/
theorem CompensationInvariant.commit {log : List ShopCommit} (h : CompensationInvariant db log)
    (hc : Committed R G op result tx db) (i : ℕ) :
    CompensationInvariant (postgres.applyAll db tx.writes) (log ++ [⟨i, op, result, tx, db⟩]) := by
  constructor
  · exact h.history.commit hc.step i result
  · refine hc.step.orders (P := fun o row => row.status = .received ∨ row.status = .diagnosis →
      row.budgetTotal = none) (fun _ _ _ hrow => hrow) ?_ ?_ h.unbudgeted
    · intro input o row message hopen _
      exact hopen.budgetTotal
    · intro o data expected r₀ r₁ hcommit hlegal hbudget hrow hearly
      have hs := hcommit.revision.status
      -- neither status is entered from one where a budget is set
      have hfrom : r₀.status = .received ∨ r₀.status = .diagnosis := by
        cases hd : data.status with
        | none =>
            rw [hd] at hs
            have heq : r₁.status = r₀.status := hs
            rwa [heq] at hearly
        | some b =>
            rw [hd] at hs
            have heq : r₁.status = b := hs
            rw [heq] at hearly
            have hcan := hlegal b hd
            rcases hearly with rfl | rfl <;> cases hr₀ : r₀.status <;> rw [hr₀] at hcan <;>
              simp_all [canTransition, validTransitions]
      have hset : data.budgetTotal = none := by
        by_contra hne
        rw [hbudget hne] at hfrom
        rcases hfrom with hfrom | hfrom <;> cases hfrom
      rw [hcommit.revision.budgetTotal, hset]
      exact hrow hfrom
  · rintro o ⟨c, hmem, hstarts⟩
    rcases List.mem_append.mp hmem with hmem | hmem
    · rcases h.started o ⟨c, hmem, hstarts⟩ with ⟨row, hrow, hpath⟩
      rcases hc.step.change hrow with ⟨r₁, h₁, hchange⟩
      rcases hchange.path with ⟨rest, hrest⟩
      refine ⟨r₁, h₁, ?_⟩
      rw [hrest]
      exact List.mem_append_left _ hpath
    · rw [List.mem_singleton.mp hmem] at hstarts
      exact hc.starts_diagnosis hstarts
  · intro c hmem
    rcases List.mem_append.mp hmem with hmem | hmem
    · exact h.budget c hmem
    · rw [List.mem_singleton.mp hmem]
      constructor
      · intro hcancels hbad
        exact hc.leaves_budget hbad hcancels
      · exact hc.cancels_budget h.unbudgeted
  · intro earlier c later hsplit
    rcases split_snoc hsplit with ⟨rfl, rfl⟩ | ⟨rest, hrest⟩
    · exact hc.step.cancels_diagnosis h.history.accounted h.started
    · exact h.diagnosis earlier c rest hrest

end Step

theorem reachable_compensation {G : ShopGuard} {s : ShopSys} (h : ShopReachable G (.start) s) :
    CompensationInvariant s.db s.log := by
  refine h.log_induction (shop_relyGuarantee G) rfl .start ?_
  intro db log i op result tx hinv _ hQ
  exact hinv.commit hQ i

/-- In every run, whatever the replies, the dead commands and their order:
every ended order has its steps cancelled in the commit that ended it, if and
only if no dead `GenerateBudget` was carried out on an order whose budget had
been generated. -/
theorem compensation_complete_iff {s : ShopSys} (h : ShopReachable .none (.start) s) :
    Compensated s.log ↔ ∀ c ∈ s.log, ¬ CancelsBudgeted c := by
  have hinv := reachable_compensation h
  constructor
  · intro hcomp c hc
    rcases List.append_of_mem hc with ⟨earlier, later, hsplit⟩
    exact (hinv.budget c hc).mp (hcomp earlier c later hsplit).1
  · intro hgood earlier c later hsplit
    have hc : c ∈ s.log := by
      rw [hsplit]
      exact List.mem_append_right _ List.mem_cons_self
    exact ⟨(hinv.budget c hc).mpr (hgood c hc), hinv.diagnosis earlier c later hsplit⟩

/-- An order in `WAITING_APPROVAL`; its budget was asked for with message 6. -/
def diagnosedMoves : List (Label Op) :=
  openingMoves ++ replyMoves 5 100 .diagnosisStarted [] 13 ++
    replyMoves 6 101 .diagnosisCompleted [] 19

/-- The dead `GenerateBudget` of that order, handled in session `i`. -/
def deadBudgetMoves (i : ℕ) : List (Label Op) :=
  Label.session i (.handleFailedCommand ⟨Uuid.text 6, .generateBudget, Uuid.text 4⟩ none) 17

/-- The budget was generated and answered, and its command is found dead all
the same: the order is cancelled and its budget is not. -/
theorem dead_budget_left_standing : ∃ s,
    (ShopSys.start).play postgres program .none (diagnosedMoves ++
      replyMoves 7 102 .budgetGenerated [("total", .num (.finite 100))] 11 ++
      deadBudgetMoves 8) = some s ∧ ¬ Compensated s.log := by
  have hplay : (((ShopSys.start).play postgres program .none (diagnosedMoves ++
      replyMoves 7 102 .budgetGenerated [("total", .num (.finite 100))] 11 ++
      deadBudgetMoves 8)).bind fun s => s.log.getLast?.map fun c =>
        ((c.before.orders.find? 4).map fun r => (r.status, r.budgetTotal),
          ((c.after postgres).orders.find? 4).map (·.status), (stored c.tx.writes).map (·.type)))
      = some (some (.waitingApproval, some 10000), some .cancelled, [.cancelExecution]) := by
    decide +kernel
  rcases Option.bind_eq_some_iff.mp hplay with ⟨s, hs, hlast⟩
  rcases Option.map_eq_some_iff.mp hlast with ⟨c, hc, hfacts⟩
  simp only [Prod.mk.injEq] at hfacts
  rcases hfacts with ⟨hbefore, hafter, htypes⟩
  rcases Option.map_eq_some_iff.mp hbefore with ⟨r₀, h₀, hr₀⟩
  rcases Option.map_eq_some_iff.mp hafter with ⟨r₁, h₁, hr₁⟩
  rw [Prod.mk.injEq] at hr₀
  refine ⟨s, hs, ?_⟩
  intro hcomp
  have hsplit : s.log = s.log.dropLast ++ c :: [] := (List.dropLast_append_getLast? c hc).symm
  have hcancels := (hcomp _ c _ hsplit).1
  have hmoves : Moves c 4 r₀ r₁ := by
    refine ⟨h₀, h₁, ?_⟩
    rw [hr₀.1, hr₁]
    decide
  rcases hcancels 4 r₀ r₁ hmoves hr₁ (by rw [hr₀.2]; simp) with ⟨m, hm, -, htype⟩
  have hmem : m.type ∈ (stored c.tx.writes).map (·.type) := List.mem_map_of_mem hm
  rw [htypes, htype] at hmem
  exact absurd hmem (by decide)

/-- On a run where the command dies before any budget was generated. -/
theorem dead_budget_compensated : ∃ s,
    (ShopSys.start).play postgres program .none (diagnosedMoves ++ deadBudgetMoves 7) = some s ∧
    (s.db.orders.find? 4).map (·.status) = some .cancelled ∧
    (Compensated s.log ↔ ∀ c ∈ s.log, ¬ CancelsBudgeted c) := by
  have hplay : ((ShopSys.start).play postgres program .none
      (diagnosedMoves ++ deadBudgetMoves 7)).map (fun s => (s.db.orders.find? 4).map (·.status))
        = some (some .cancelled) := by
    decide +kernel
  rcases Option.map_eq_some_iff.mp hplay with ⟨s, hs, hstatus⟩
  exact ⟨s, hs, hstatus, compensation_complete_iff (reachable_of_play .init hs)⟩

end CarRepairShop
