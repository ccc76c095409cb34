import CarRepairShop.OutboxPath

/-! # The budgeted order is the executed order

A `GenerateBudget` command carries one line per service and item of the order.
The order is meant to stay as budgeted, since lines are edited in `DIAGNOSIS`
only and the command is stored in the transaction that leaves `DIAGNOSIS`. An
editor checks the status on an order it read earlier, though, and claims its
version whatever it is by then. As long as no editor gets to write an order
that has left `DIAGNOSIS` in between (`LateEdit`), what is executed is what was
budgeted.
-/

namespace CarRepairShop

open Lib Txn

/-! ## The lines of a budget -/

/-- The services a budget was made for. -/
def budgetedServices (lines : List BudgetLine) : List IdText :=
  lines.filterMap fun line => if line.kind = .service then some line.referenceId else none

/-- The units of item `i` a budget was made for. -/
def budgetedUnits (lines : List BudgetLine) (i : Uuid) : ℤ :=
  (lines.map fun line =>
    if line.kind = .item ∧ line.referenceId.column? = some i then line.quantity else 0).sum

section Lines

variable {lines : List BudgetLine} {r : OrderRow} (h : lines.map BudgetLine.subject = r.budget)

include h

/-- A budget that matches an order is made for its services. -/
theorem budgetedServices_of_match : budgetedServices lines = r.services.map Uuid.text := by
  have hsubjects : budgetedServices lines = (lines.map BudgetLine.subject).filterMap
      fun subject => if subject.1 = .service then some subject.2.1 else none := by
    rw [List.filterMap_map]
    rfl
  rw [hsubjects, h, OrderRow.budget, List.filterMap_append, List.filterMap_map, List.filterMap_map]
  simp

/-- It is made for its items, at the quantities ordered. -/
theorem budgetedUnits_of_match (i : Uuid) : budgetedUnits lines i = lineUnits r.items i := by
  have hsubjects : budgetedUnits lines i = ((lines.map BudgetLine.subject).map
      fun subject => if subject.1 = .item ∧ subject.2.1.column? = some i then subject.2.2
        else 0).sum := by
    rw [List.map_map]
    rfl
  rw [hsubjects, h, OrderRow.budget, List.map_append, List.sum_append, List.map_map, List.map_map]
  simp [lineUnits, Function.comp_def]

end Lines

/-- A repair command has a task for each service of its order. -/
theorem CommandPayload.tasks {r : OrderRow} {reason : Option CompensationReason}
    {type : SagaCommandType} {repair : EnqueueRepairCommand}
    (h : CommandPayload r reason type (.enqueueRepair repair)) :
    repair.tasks.map (·.serviceId) = r.services.map Uuid.text := by
  cases type <;> simp [CommandPayload] at h
  exact h

/-- A budget command has the lines of its order. -/
theorem CommandPayload.lines {r : OrderRow} {reason : Option CompensationReason}
    {type : SagaCommandType} {command : GenerateBudgetCommand}
    (h : CommandPayload r reason type (.generateBudget command)) :
    type = .generateBudget ∧ command.lines.map BudgetLine.subject = r.budget := by
  cases type <;> simp [CommandPayload] at h
  exact ⟨rfl, h⟩

/-! ## What is kept, and what breaks it -/

/-- Every budget that was asked for is that of its order as it is now. -/
def BudgetKept (db : Db) : Prop :=
  ∀ m ∈ db.outbox, ∀ command, m.payload = .generateBudget command →
    ∃ row, db.orders.find? m.serviceOrderId = some row ∧
      command.lines.map BudgetLine.subject = row.budget

/-- What the commit does with an order whose budget was asked for is what was
budgeted: the tasks of a repair are the budgeted services, and the units that a
change of status consumes or releases are the budgeted units. -/
def ActsOnBudget (c : ShopCommit) : Prop :=
  ∀ m ∈ c.before.outbox, ∀ command, m.payload = .generateBudget command →
    (∀ m' ∈ stored c.tx.writes, ∀ repair, m'.serviceOrderId = m.serviceOrderId →
      m'.payload = .enqueueRepair repair →
        repair.tasks.map (·.serviceId) = budgetedServices command.lines) ∧
    ∀ r₀ r₁, Moves c m.serviceOrderId r₀ r₁ →
      Shift c.tx.writes c.before (fun i => reservedOn r₁.status * budgetedUnits command.lines i)
        (fun i => stockedOn r₁.status * budgetedUnits command.lines i)

/-- An editor that writes an order which has left `DIAGNOSIS`. -/
def LateEdit (c : ShopCommit) : Prop :=
  c.op.edits = true ∧ ∃ cl ∈ claims c.tx.trace, ∃ r₀,
    c.before.orders.find? cl.order = some r₀ ∧ r₀.status ≠ .diagnosis

/-! ## One commit -/

section Step

variable {R : List Write → Db → Db → Prop} {G : ShopTx → Stmt → Db → Prop}
variable {op : Op} {result : Outcome} {tx : ShopTx} {db : Db}

/-- A move of an order moves the stock of its lines. -/
theorem OrderStep.moves_stock (h : OrderStep R G op tx db) {i : ℕ} {o : Uuid} {r₀ r₁ : OrderRow}
    (hm : Moves ⟨i, op, result, tx, db⟩ o r₀ r₁) :
    Shift tx.writes db (fun i => reservedOn r₁.status * lineUnits r₀.items i)
      (fun i => stockedOn r₁.status * lineUnits r₀.items i) := by
  have hlast := (h.moves hm).1
  have hbefore : db.orders.find? o = some r₀ := hm.before
  cases h with
  | quiet horders _ _ _ =>
      rw [horders o] at hlast
      cases hlast
  | opened input o' row message hopen =>
      by_cases ho : o = o'
      · subst ho
        rw [hopen.isNew] at hbefore
        cases hbefore
      · rw [hopen.others o ho] at hlast
        cases hlast
  | updated o' data expected q₀ q₁ hcommit _ _ _ hlines =>
      rcases hcommit.written hlast with ⟨rfl, rfl⟩
      have heq : q₀ = r₀ := Option.some.inj (hcommit.found.symm.trans hbefore)
      subst heq
      have hs := hcommit.revision.status
      cases hd : data.status with
      | none =>
          rw [hd] at hs
          exact absurd hs hm.status
      | some b =>
          rw [hd] at hs
          have hb : r₁.status = b := hs
          rcases hlines with ⟨-, -, hshift⟩ | ⟨-, hnone, -⟩
          · rw [hb]
            rw [hd] at hshift
            exact hshift
          · rw [hd] at hnone
            cases hnone

/-- A repair has a task for each service of its order. -/
theorem OrderStep.repairs (h : OrderStep R G op tx db) {m : OutboxRow} (hm : m ∈ stored tx.writes)
    {repair : EnqueueRepairCommand} (hp : m.payload = .enqueueRepair repair) :
    ∃ r₀, db.orders.find? m.serviceOrderId = some r₀ ∧
      repair.tasks.map (·.serviceId) = r₀.services.map Uuid.text := by
  cases h with
  | quiet _ hstored _ _ =>
      rw [hstored] at hm
      cases hm
  | opened input o row message hopen =>
      rw [hopen.stored, List.mem_singleton] at hm
      subst hm
      have hpayload := hopen.carries.payload
      rw [hp] at hpayload
      cases hpayload
  | updated o data expected r₀ r₁ hcommit _ hstored _ _ =>
      rcases commands_each hstored m hm with ⟨type, hcommand⟩
      have horder : m.serviceOrderId = o := hcommand.order.trans (order_id hcommit.found)
      refine ⟨r₀, by rw [horder]; exact hcommit.found, ?_⟩
      have hpayload := hcommand.payload
      rw [hp] at hpayload
      exact hpayload.tasks

/-- A budget is asked for when its order leaves `DIAGNOSIS`, with its lines. -/
theorem OrderStep.budgets (h : OrderStep R G op tx db) {m : OutboxRow} (hm : m ∈ stored tx.writes)
    {command : GenerateBudgetCommand} (hp : m.payload = .generateBudget command) :
    ∃ r₁, lastOrder tx.writes m.serviceOrderId = some r₁ ∧ r₁.status = .waitingApproval ∧
      command.lines.map BudgetLine.subject = r₁.budget := by
  cases h with
  | quiet _ hstored _ _ =>
      rw [hstored] at hm
      cases hm
  | opened input o row message hopen =>
      rw [hopen.stored, List.mem_singleton] at hm
      subst hm
      have hpayload := hopen.carries.payload
      rw [hp] at hpayload
      cases hpayload
  | updated o data expected r₀ r₁ hcommit _ hstored _ hlines =>
      rcases commands_each hstored m hm with ⟨type, hcommand⟩
      have horder : m.serviceOrderId = o := hcommand.order.trans (order_id hcommit.found)
      have hpayload := hcommand.payload
      rw [hp] at hpayload
      rcases hpayload.lines with ⟨htype, hsubjects⟩
      subst htype
      -- among the commands of a move only the one to `WAITING_APPROVAL` has it
      have hmem : SagaCommandType.generateBudget ∈ commandsTo r₀.status data.status := by
        rw [← commands_types hstored, ← hcommand.isType]
        exact List.mem_map_of_mem hm
      have hdata : data.status = some .waitingApproval := by
        cases hd : data.status with
        | none =>
            rw [hd] at hmem
            cases hmem
        | some b =>
            rw [hd] at hmem
            cases hr₀ : r₀.status <;> rw [hr₀] at hmem <;> cases b <;>
              first
              | rfl
              | exact absurd hmem (by decide)
      have hlines' : r₁.services = r₀.services ∧ r₁.items = r₀.items := by
        rcases hlines with ⟨hservices, hitems, -⟩ | ⟨-, hnone, -⟩
        · exact ⟨hcommit.revision.services hservices, hcommit.revision.items hitems⟩
        · rw [hdata] at hnone
          cases hnone
      refine ⟨r₁, by rw [horder]; exact hcommit.order, ?_, ?_⟩
      · rw [hcommit.revision.status, hdata]
        rfl
      · rw [hsubjects, OrderRow.budget, OrderRow.budget, hlines'.1, hlines'.2]

/-- A commit other than a late edit keeps the lines of an order that has left
`DIAGNOSIS`, and does not take it back. -/
theorem OrderStep.keeps_lines (h : OrderStep R G op tx db) {i : ℕ}
    (hlate : ¬ LateEdit ⟨i, op, result, tx, db⟩) {o : Uuid} {r₀ : OrderRow}
    (h₀ : db.orders.find? o = some r₀) (hs : r₀.status ≠ .received ∧ r₀.status ≠ .diagnosis) :
    ∃ r₁, (postgres.applyAll db tx.writes).orders.find? o = some r₁ ∧ r₁.budget = r₀.budget ∧
      r₁.status ≠ .received ∧ r₁.status ≠ .diagnosis := by
  rw [applyAll_orders, h₀]
  cases hlast : lastOrder tx.writes o with
  | none => exact ⟨r₀, rfl, rfl, hs⟩
  | some written =>
      refine ⟨written, rfl, ?_⟩
      cases h with
      | quiet horders _ _ _ =>
          rw [horders o] at hlast
          cases hlast
      | opened input o' row message hopen =>
          by_cases ho : o = o'
          · subst ho
            rw [hopen.isNew] at h₀
            cases h₀
          · rw [hopen.others o ho] at hlast
            cases hlast
      | updated o' data expected q₀ q₁ hcommit hlegal _ _ hlines =>
          rcases hcommit.written hlast with ⟨rfl, rfl⟩
          have heq : q₀ = r₀ := Option.some.inj (hcommit.found.symm.trans h₀)
          subst heq
          have hkept : written.services = q₀.services ∧ written.items = q₀.items := by
            rcases hlines with ⟨hservices, hitems, -⟩ | ⟨hedits, -, -⟩
            · exact ⟨hcommit.revision.services hservices, hcommit.revision.items hitems⟩
            · exfalso
              -- an editor that claims an order past `DIAGNOSIS` is a late edit
              apply hlate
              refine ⟨hedits, ⟨o, expected, 1⟩, ?_, q₀, h₀, hs.2⟩
              rw [hcommit.claims]
              exact List.mem_singleton_self _
          refine ⟨by rw [OrderRow.budget, OrderRow.budget, hkept.1, hkept.2], ?_⟩
          have hstatus := hcommit.revision.status
          cases hd : data.status with
          | none =>
              rw [hd] at hstatus
              have heq : written.status = q₀.status := hstatus
              rw [heq]
              exact hs
          | some b =>
              rw [hd] at hstatus
              have heq : written.status = b := hstatus
              have hcan := hlegal b hd
              rw [heq]
              constructor
              · rintro rfl
                -- no transition leads to `RECEIVED`
                cases hq : q₀.status <;> rw [hq] at hcan <;>
                  simp [canTransition, validTransitions] at hcan
              · rintro rfl
                -- `RECEIVED` alone leads to `DIAGNOSIS`
                have hreceived : q₀.status = .received := by
                  cases hq : q₀.status <;> rw [hq] at hcan <;>
                    simp [canTransition, validTransitions] at hcan ⊢
                exact hs.1 hreceived

end Step

/-! ## Every run -/

/-- What holds of the committed tables and the commits so far. -/
structure BudgetInvariant (db : Db) (log : List ShopCommit) : Prop where
  kept : ∀ m ∈ db.outbox, ∀ command, m.payload = .generateBudget command →
    ∃ row, db.orders.find? m.serviceOrderId = some row ∧
      command.lines.map BudgetLine.subject = row.budget ∧
      row.status ≠ .received ∧ row.status ≠ .diagnosis
  acts : ∀ c ∈ log, ActsOnBudget c

theorem BudgetInvariant.start : BudgetInvariant {} [] where
  kept := by
    intro m hm
    cases hm
  acts := by
    intro c hc
    cases hc

/-- The step: a commit that is no late edit acts on the budgets and keeps them. -/
theorem BudgetInvariant.commit {R : List Write → Db → Db → Prop} {G : ShopTx → Stmt → Db → Prop}
    {op : Op} {tx : ShopTx} {db : Db} {log : List ShopCommit} (h : BudgetInvariant db log)
    (hstep : OrderStep R G op tx db) {i : ℕ} {result : Outcome}
    (hlate : ¬ LateEdit ⟨i, op, result, tx, db⟩) :
    BudgetInvariant (postgres.applyAll db tx.writes) (log ++ [⟨i, op, result, tx, db⟩]) := by
  constructor
  · intro m hm command hp
    rw [applyAll_outbox] at hm
    rcases List.mem_append.mp hm with hm | hm
    · rcases h.kept m hm command hp with ⟨r₀, h₀, hbudget, hs⟩
      rcases hstep.keeps_lines hlate h₀ hs with ⟨r₁, h₁, hsame, hs₁⟩
      exact ⟨r₁, h₁, hbudget.trans hsame.symm, hs₁⟩
    -- a budget is asked for by the commit that leaves `DIAGNOSIS`
    · rcases hstep.budgets hm hp with ⟨r₁, h₁, hwaiting, hbudget⟩
      refine ⟨r₁, ?_, hbudget, ?_⟩
      · rw [applyAll_orders, h₁]
        rfl
      · rw [hwaiting]
        constructor <;> decide
  · intro c hc
    rcases List.mem_append.mp hc with hc | hc
    · exact h.acts c hc
    · rw [List.mem_singleton.mp hc]
      intro m hm command hp
      rcases h.kept m hm command hp with ⟨r, hr, hbudget, -⟩
      constructor
      · intro m' hm' repair ho hp'
        -- the repair has the services of the order as they were, so the budgeted ones
        rcases hstep.repairs hm' hp' with ⟨r₀, h₀, htasks⟩
        rw [ho] at h₀
        have heq : r₀ = r := Option.some.inj (h₀.symm.trans hr)
        rw [htasks, heq, budgetedServices_of_match hbudget]
      · intro r₀ r₁ hmoves
        have heq : r = r₀ := Option.some.inj (hr.symm.trans hmoves.before)
        subst heq
        have hshift := hstep.moves_stock hmoves
        refine hshift.congr (fun j => ?_) (fun j => ?_)
        · rw [budgetedUnits_of_match hbudget]
        · rw [budgetedUnits_of_match hbudget]

theorem reachable_budget {G : ShopGuard} {s : ShopSys} (h : ShopReachable G (.start) s)
    (hedits : ∀ c ∈ s.log, ¬ LateEdit c) : BudgetInvariant s.db s.log := by
  have hinv := h.log_induction (P := fun db log => (∀ c ∈ log, ¬ LateEdit c) →
    BudgetInvariant db log) (shop_relyGuarantee G) rfl (fun _ => .start) ?_
  · exact hinv hedits
  · intro db log i op result tx hinv _ hQ hall
    refine (hinv fun c hc => hall c (List.mem_append_left _ hc)).commit hQ.step ?_
    exact hall _ (List.mem_append_right _ (List.mem_singleton_self _))

/-- In every run where no editor writes an order that has left `DIAGNOSIS`:
every budget that was asked for stays that of its order, and every repair,
payment and compensation acts on exactly what was budgeted. -/
theorem budgeted_order_is_executed {s : ShopSys} (h : ShopReachable .none (.start) s)
    (hedits : ∀ c ∈ s.log, ¬ LateEdit c) : BudgetKept s.db ∧ ∀ c ∈ s.log, ActsOnBudget c := by
  have hinv := reachable_budget h hedits
  refine ⟨?_, hinv.acts⟩
  intro m hm command hp
  rcases hinv.kept m hm command hp with ⟨row, hrow, hbudget, -⟩
  exact ⟨row, hrow, hbudget⟩

/-- The editor read the order in `DIAGNOSIS`; `DiagnosisCompleted` is handled
before it claims the version: the budget asked for has two units of an item,
the order five. -/
theorem late_edit_breaks_budget : ∃ s,
    (ShopSys.start).play postgres program .none (openingMoves ++
      replyMoves 5 100 .diagnosisStarted [] 13 ++
      Label.session 6 (.addItemToOS (Uuid.text 4) (Uuid.text 2) 3) 5 ++
      replyMoves 7 101 .diagnosisCompleted [] 19 ++
      List.replicate 8 (.advance 6)) = some s ∧ ¬ BudgetKept s.db := by
  have hplay : ((ShopSys.start).play postgres program .none (openingMoves ++
      replyMoves 5 100 .diagnosisStarted [] 13 ++
      Label.session 6 (.addItemToOS (Uuid.text 4) (Uuid.text 2) 3) 5 ++
      replyMoves 7 101 .diagnosisCompleted [] 19 ++
      List.replicate 8 (.advance 6))).map (fun s => s.db.outbox.any fun m =>
        match m.payload with
        | .generateBudget command => (s.db.orders.find? m.serviceOrderId).any fun row =>
            decide (command.lines.map BudgetLine.subject ≠ row.budget)
        | _ => false) = some true := by
    decide +kernel
  rcases Option.map_eq_some_iff.mp hplay with ⟨s, hs, hany⟩
  refine ⟨s, hs, ?_⟩
  intro hkept
  rcases List.any_eq_true.mp hany with ⟨m, hm, hdiffers⟩
  split at hdiffers
  · next command hp =>
    rcases hkept m hm command hp with ⟨row, hrow, hbudget⟩
    rw [hrow, Option.any_some, decide_eq_true_iff] at hdiffers
    exact hdiffers hbudget
  · cases hdiffers

/-- On a run where the editor is done before the diagnosis is. -/
theorem edited_order_is_executed : ∃ s,
    (ShopSys.start).play postgres program .none (openingMoves ++
      replyMoves 5 100 .diagnosisStarted [] 13 ++
      Label.session 6 (.addItemToOS (Uuid.text 4) (Uuid.text 2) 3) 13 ++
      replyMoves 7 101 .diagnosisCompleted [] 19) = some s ∧
    BudgetKept s.db ∧ ∀ c ∈ s.log, ActsOnBudget c := by
  have hplay : (((ShopSys.start).play postgres program .none (openingMoves ++
      replyMoves 5 100 .diagnosisStarted [] 13 ++
      Label.session 6 (.addItemToOS (Uuid.text 4) (Uuid.text 2) 3) 13 ++
      replyMoves 7 101 .diagnosisCompleted [] 19)).map fun s => s.log.all fun c =>
        !c.op.edits || (claims c.tx.trace).all fun cl =>
          (c.before.orders.find? cl.order).all fun r₀ => decide (r₀.status = .diagnosis))
        = some true := by
    decide +kernel
  rcases Option.map_eq_some_iff.mp hplay with ⟨s, hs, hall⟩
  refine ⟨s, hs, budgeted_order_is_executed (reachable_of_play .init hs) ?_⟩
  rintro c hc ⟨hedits, cl, hcl, r₀, h₀, hstatus⟩
  have hc' := List.all_eq_true.mp hall c hc
  rw [hedits, Bool.not_true, Bool.false_or] at hc'
  have hr := List.all_eq_true.mp hc' cl hcl
  rw [h₀, Option.all_some, decide_eq_true_iff] at hr
  exact hstatus hr

end CarRepairShop
