import CarRepairShop.Serial
import CarRepairShop.Lib.FollowUp

/-! # Announcing the changes of status

After the commit of an operation that changed the status of an order, its
client reads the order and the customer again and hands both to the notifier
(`NotifyStatusChangeUseCase.ts`). The transactions of the service together
with these notices are a system with follow-ups: a notice is set off by a
commit, and its reads see whatever is committed by then.

Each status change of an order is announced once, and no other commit is. A
notice carries the status of the order when the order is read again; statuses
never come back, so that is the status its own operation committed exactly
when no later change was committed before the read.
-/

namespace CarRepairShop

open Lib Txn Prog

/-! ## Notices -/

/-- `NotifyStatusChangeUseCase.execute`: what is handed to
`notifyStatusChanged`, if anything is. -/
def NotifyStatusChange.execute (osId : IdText) : Work (Option (Customer × ServiceOrder)) := do
  let os ← ServiceOrderRepository.findById osId
  match os with
  | none => .pure none
  | some os => do
      let customer ← CustomerRepository.findById os.customerId
      match customer with
      | none => .pure none
      | some customer => .pure (some (customer, os))

/-- The order that an operation has announced after its commit. The saga does
so for a new status only, the delivery always. -/
def noticeOf : Op → Outcome → Option IdText
  | .handle reply _, .saga result =>
      if result.statusChanged then some reply.serviceOrderId else none
  | .handleFailedCommand command _, .saga result =>
      if result.statusChanged then some command.serviceOrderId else none
  | .deliverOS osId, _ => some osId
  | _, _ => none

/-- What a commit sets off. -/
def announce (op : Op) (result : Outcome) : Option (Work (Option (Customer × ServiceOrder))) :=
  (noticeOf op result).map NotifyStatusChange.execute

/-- The service together with its notices. -/
abbrev Announcing := Followed Db Stmt Stmt.Resp Write Failure Op Outcome
  (Option (Customer × ServiceOrder))

/-- The service before any operation. -/
def Announcing.start : Announcing := { sys := ShopSys.start }

/-- The states of the service and its notices that are reached. -/
abbrev AnnouncingReachable : Announcing → Prop :=
  FollowedReachable postgres program announce Announcing.start

/-! ## Which commits are announced -/

section Commits

variable {R : List Write → Db → Db → Prop} {G : ShopTx → Stmt → Db → Prop}
variable {op : Op} {result : Outcome} {tx : ShopTx} {db : Db}

/-- The commit changes the status of exactly the order it has announced. -/
def Announces (op : Op) (result : Outcome) (tx : ShopTx) (db : Db) : Prop :=
  ∀ o, StatusMoved o tx db ↔ ∃ osId, noticeOf op result = some osId ∧ osId.column? = some o

/-- A commit that changes no status and announces nothing. -/
theorem Announces.quiet (hnone : noticeOf op result = none)
    (h : ∀ o, ¬ StatusMoved o tx db) : Announces op result tx db := by
  intro o
  constructor
  · intro hmoved
    exact absurd hmoved (h o)
  · rintro ⟨osId, hosId, -⟩
    rw [hnone] at hosId
    cases hosId

theorem Quiet.notMoved (h : Quiet tx.writes) (o : Uuid) : ¬ StatusMoved o tx db :=
  not_statusMoved (h.orders o)

/-- An order that is being opened had no status. -/
theorem OrderOpened.notMoved {input : CreateServiceOrderInput} {o : Uuid} {row : OrderRow}
    {message : OutboxRow} (h : OrderOpened R input o row message tx db) (o' : Uuid) :
    ¬ StatusMoved o' tx db := by
  rintro ⟨r₀, r₁, hr₀, hr₁, -⟩
  by_cases ho : o' = o
  · subst ho
    rw [h.isNew] at hr₀
    cases hr₀
  · rw [h.others o' ho] at hr₁
    cases hr₁

theorem Edited.notMoved {o : Uuid} {ids : List Uuid} {lines : List ItemLine}
    {data : ServiceOrderChanges} {r₀ r₁ : OrderRow} {ws : List Write}
    (h : Edited R G o ids lines data r₀ r₁ ws tx db) (hs : data.status = none) (o' : Uuid) :
    ¬ StatusMoved o' tx db := by
  rw [h.commit.statusMoved_iff, hs]
  rintro ⟨-, hne⟩
  exact hne rfl

/-- A message is announced when its flag is up. -/
theorem announces_of_flag {osId : IdText} {flag : Bool}
    (hnotice : noticeOf op result = if flag then some osId else none)
    (h : ∀ o, StatusMoved o tx db ↔ flag = true ∧ osId.column? = some o) :
    Announces op result tx db := by
  intro o
  rw [h, hnotice]
  constructor
  · rintro ⟨hflag, ho⟩
    exact ⟨osId, if_pos hflag, ho⟩
  · rintro ⟨osId', hosId', ho⟩
    split at hosId'
    · next hflag =>
      cases hosId'
      exact ⟨hflag, ho⟩
    · cases hosId'

/-- Every operation announces exactly the changes of status it commits. -/
theorem program_announces (hR : ShopInterference R) (op : Op) (db : Db) :
    (program op).Ensures postgres R G (fun result tx db' => Committed R G op result tx db' ∧
      Announces op result tx db') {} db := by
  have hall := program_ensures (G := G) hR op db
  cases op with
  | handle reply traceparent =>
      refine hall.and (Ensures.map hR.toInterference
        ((ServiceOrderSaga.handle_ensures hR reply traceparent).post ?_))
      intro result tx db' h
      exact announces_of_flag rfl h.2
  | handleFailedCommand command traceparent =>
      refine hall.and (Ensures.map hR.toInterference
        ((ServiceOrderSaga.handleFailedCommand_ensures hR command traceparent).post ?_))
      intro result tx db' h
      exact announces_of_flag rfl h.2
  | deliverOS osId =>
      refine hall.post fun result tx db' h => ⟨h, fun o => ?_⟩
      obtain ⟨o', r₀, r₁, data, ho', hcommit, -, -, hstatus, -, hlegal, -⟩ := h
      rw [hcommit.statusMoved_iff, hstatus]
      constructor
      · rintro ⟨rfl, -⟩
        exact ⟨osId, rfl, ho'⟩
      · rintro ⟨_, hosId, ho⟩
        cases hosId
        exact ⟨Option.some.inj (ho.symm.trans ho'), canTransition_ne hlegal⟩
  | createServiceOrder input traceparent =>
      refine hall.post fun result tx db' h => ⟨h, ?_⟩
      obtain ⟨o, row, message, hopen⟩ := h
      exact .quiet rfl hopen.notMoved
  | addItemToOS osId itemId quantity =>
      refine hall.post fun result tx db' h => ⟨h, ?_⟩
      obtain ⟨o, i, ids, lines, r₀, r₁, ws, -, hadded⟩ := h
      exact .quiet rfl (hadded.edited.notMoved rfl)
  | removeItemFromOS osId itemId =>
      refine hall.post fun result tx db' h => ⟨h, ?_⟩
      obtain ⟨o, line, ids, lines, r₀, r₁, ws, -, hremoved⟩ := h
      exact .quiet rfl (hremoved.edited.notMoved rfl)
  | addServiceToOS osId serviceId =>
      refine hall.post fun result tx db' h => ⟨h, ?_⟩
      obtain ⟨o, ids, lines, r₀, r₁, -, hadded⟩ := h
      exact .quiet rfl (hadded.edited.notMoved rfl)
  | removeServiceFromOS osId serviceId =>
      refine hall.post fun result tx db' h => ⟨h, ?_⟩
      obtain ⟨o, ids, lines, r₀, r₁, -, hremoved⟩ := h
      exact .quiet rfl (hremoved.edited.notMoved rfl)
  | createItem | updateItem | deleteItem =>
      exact hall.post fun result tx db' h => ⟨h, .quiet rfl h.1.notMoved⟩
  | createService | updateService | deleteService | createCustomer | updateCustomer
  | deleteCustomer | createVehicle | updateVehicle | deleteVehicle =>
      exact hall.post fun result tx db' h => ⟨h, .quiet rfl h.1.quiet.notMoved⟩

end Commits

/-! ## The order from commit to commit -/

/-- How far along its life an order is. -/
def OSStatus.stage : OSStatus → ℕ
  | .received => 0
  | .diagnosis => 1
  | .waitingApproval => 2
  | .approved => 3
  | .paid => 4
  | .execution => 5
  | .finished => 6
  | .delivered => 7
  | .rejected => 8
  | .cancelled => 9

/-- Statuses never come back. -/
theorem stage_lt {a b : OSStatus} (h : canTransition a b = true) : a.stage < b.stage := by
  have hall : ∀ b ∈ validTransitions a, a.stage < b.stage := by
    cases a <;> decide
  exact hall b (by simpa [canTransition] using h)

/-- What is known of every commit of a run. -/
structure CommitFacts (c : ShopCommit) : Prop where
  committed : Committed Rely AnyStep c.op c.result c.tx c.before
  announces : Announces c.op c.result c.tx c.before

/-- The tables after the first `k` commits of a run. -/
abbrev tablesAt (log : List ShopCommit) (k : ℕ) : Db := tablesAfter postgres {} log k

/-- No commit from position `k` to before position `j` gives `o` another status. -/
def Calm (o : Uuid) (log : List ShopCommit) (k j : ℕ) : Prop :=
  ∀ i c, k ≤ i → i < j → log[i]? = some c → ¬ StatusMoved o c.tx c.before

section Between

variable {s : ShopSys} {o : Uuid}

theorem reachable_commitFacts (h : ShopReachable .none .start s) : ∀ c ∈ s.log, CommitFacts c := by
  have hRG : RelyGuarantee postgres program .none Rely fun op result tx db =>
      Committed Rely AnyStep op result tx db ∧ Announces op result tx db :=
    { shop_relyGuarantee .none with
      launch := fun op _ db => (program_announces shopInterference_rely op db).mono
        (fun _ _ _ h => h) (fun _ _ _ _ => trivial) fun _ _ _ h => h
      commit := fun _ _ _ _ _ hQ hclear => rely_of_commit hQ.1.advances hclear }
  refine h.log_induction (P := fun _ log => ∀ c ∈ log, CommitFacts c) hRG rfl ?_ ?_
  · intro c hc
    cases hc
  · intro db log i op result tx hall _ hQ c hc
    rcases List.mem_append.mp hc with hc | hc
    · exact hall c hc
    · obtain rfl := List.mem_singleton.mp hc
      exact ⟨hQ.1, hQ.2⟩

/-- What one commit makes of an order: it keeps its customer, and another
status is a later one. -/
theorem CommitFacts.order {c : ShopCommit} (h : CommitFacts c) {r₀ : OrderRow}
    (h₀ : c.before.orders.find? o = some r₀) :
    ∃ r₁, (c.after postgres).orders.find? o = some r₁ ∧ r₁.customerId = r₀.customerId ∧
      (StatusMoved o c.tx c.before → r₀.status.stage < r₁.status.stage) ∧
      (¬ StatusMoved o c.tx c.before → r₁.status = r₀.status) := by
  have hkept : lastOrder c.tx.writes o = none →
      ∃ r₁, (c.after postgres).orders.find? o = some r₁ ∧ r₁.customerId = r₀.customerId ∧
        (StatusMoved o c.tx c.before → r₀.status.stage < r₁.status.stage) ∧
        (¬ StatusMoved o c.tx c.before → r₁.status = r₀.status) := by
    intro hlast
    refine ⟨r₀, ?_, rfl, fun hmoved => absurd hmoved (not_statusMoved hlast), fun _ => rfl⟩
    rw [Commit.after, applyAll_orders, hlast]
    exact h₀
  cases h.committed.step with
  | quiet horders _ _ _ => exact hkept (horders o)
  | opened input o' row message hopen =>
      by_cases ho : o = o'
      · subst ho
        rw [hopen.isNew] at h₀
        cases h₀
      · exact hkept (hopen.others o ho)
  | updated o' data expected q₀ r₁ hcommit hlegal _ _ _ =>
      by_cases ho : o = o'
      · subst ho
        obtain rfl : q₀ = r₀ := Option.some.inj (hcommit.found.symm.trans h₀)
        have hstatus := hcommit.revision.status
        refine ⟨r₁, ?_, hcommit.revision.customerId, ?_, ?_⟩
        · rw [Commit.after, applyAll_orders, hcommit.order]
          rfl
        · intro hmoved
          obtain ⟨-, hne⟩ := hcommit.statusMoved_iff.mp hmoved
          cases hdata : data.status with
          | none =>
              rw [hdata] at hne
              exact absurd rfl hne
          | some b =>
              rw [hstatus, hdata]
              exact stage_lt (hlegal b hdata)
        · intro hstill
          rw [hcommit.statusMoved_iff] at hstill
          rw [hstatus]
          by_contra hne
          exact hstill ⟨rfl, hne⟩
      · exact hkept (hcommit.others o ho)

/-- An order between two positions of a run: it is still there, with its
customer, and its status is the same exactly when the time between was calm. -/
theorem order_between (h : ShopReachable .none .start s) {k j : ℕ} (hkj : k ≤ j)
    (hj : j ≤ s.log.length) {r : OrderRow} (hr : (tablesAt s.log k).orders.find? o = some r) :
    ∃ r', (tablesAt s.log j).orders.find? o = some r' ∧ r'.customerId = r.customerId ∧
      r.status.stage ≤ r'.status.stage ∧ (r'.status = r.status ↔ Calm o s.log k j) := by
  induction j, hkj using Nat.le_induction with
  | base =>
      refine ⟨r, hr, rfl, Nat.le_refl _, fun _ => ?_, fun _ => rfl⟩
      intro i c hki hik
      omega
  | succ j hkj ih =>
      obtain ⟨r', hr', hcustomer, hstage, hcalm⟩ := ih (by omega)
      obtain ⟨c, hc⟩ : ∃ c, s.log[j]? = some c := ⟨_, List.getElem?_eq_getElem hj⟩
      have hbefore : c.before = tablesAt s.log j := (h.logged rfl).before j c hc
      have hafter : c.after postgres = tablesAt s.log (j + 1) := by
        rw [Commit.after, hbefore]
        exact (tablesAfter_succ hc).symm
      rw [← hbefore] at hr'
      obtain ⟨r'', hr'', hcustomer', hmoved, hsame⟩ :=
        (reachable_commitFacts h c (List.mem_of_getElem? hc)).order hr'
      rw [hafter] at hr''
      refine ⟨r'', hr'', hcustomer'.trans hcustomer, ?_, ?_⟩
      · by_cases hm : StatusMoved o c.tx c.before
        · have hlt := hmoved hm
          omega
        · rw [hsame hm]
          exact hstage
      · constructor
        · intro heq i c' hki hij hc'
          have hnot : ¬ StatusMoved o c.tx c.before := by
            intro hm
            have hlt := hmoved hm
            rw [heq] at hlt
            omega
          rcases Nat.lt_or_ge i j with hi | hi
          · rw [hsame hnot] at heq
            exact hcalm.mp heq i c' hki hi hc'
          · obtain rfl : i = j := by omega
            obtain rfl : c = c' := Option.some.inj (hc.symm.trans hc')
            exact hnot
        · intro hall
          rw [hsame (hall j c hkj (Nat.lt_succ_self j) hc)]
          exact hcalm.mpr fun i c' hki hij hc' => hall i c' hki (by omega) hc'

/-! ## What a notice says -/

/-- The customer of order `o` is active. -/
def ActiveCustomer (o : Uuid) (db : Db) : Prop :=
  ∀ r, db.orders.find? o = some r →
    ∃ c, db.customers.find? r.customerId = some c ∧ c.deletedAt = none

instance (o : Uuid) (db : Db) : Decidable (ActiveCustomer o db) :=
  decidable_of_iff (∀ r ∈ db.orders.find? o,
    ∃ c ∈ db.customers.find? r.customerId, c.deletedAt = none) Iff.rfl

/-- The notice of an order that is there carries the status the order has when
it is read again. -/
theorem notice_reads (h : ShopReachable .none .start s) {osId : IdText} (ho : osId.column? = some o)
    (hactive : ∀ j, j ≤ s.log.length → ActiveCustomer o (tablesAt s.log j)) {lo : ℕ} {r : OrderRow}
    (hr : (tablesAt s.log lo).orders.find? o = some r) {js : List ℕ}
    {value : Option (Customer × ServiceOrder)}
    (hreads : Reads postgres (tablesAt s.log) s.log.length lo (NotifyStatusChange.execute osId) js
      (.pure value)) :
    ∃ j customer os r', js.head? = some j ∧ lo ≤ j ∧ j ≤ s.log.length ∧
      value = some (customer, os) ∧ os.id = o.text ∧
      (tablesAt s.log j).orders.find? o = some r' ∧ os.status = r'.status := by
  unfold NotifyStatusChange.execute ServiceOrderRepository.findById at hreads
  rw [ho] at hreads
  obtain ⟨j, found, rest, rfl, hlo, he, hreads⟩ := hreads.of_stmt
  obtain ⟨r', hr', hcustomer, -, -⟩ := order_between h hlo hreads.le hr
  have hfound : found = some r'.toOrderColumns := by
    simp only [postgres, exec, hr', Except.ok.injEq, Prod.mk.injEq] at he
    exact he.1.symm
  subst hfound
  have hj := hreads.le
  obtain ⟨j₂, services, rest₂, rfl, h₂, -, hreads⟩ := hreads.of_stmt
  obtain ⟨j₃, items, rest₃, rfl, h₃, -, hreads⟩ := hreads.of_stmt
  obtain ⟨j₄, customer, rest₄, rfl, h₄, he₄, hreads⟩ := hreads.of_stmt
  -- the customer that is read is the one the order still has
  obtain ⟨r₄, hr₄, hcustomer₄, -, -⟩ :=
    order_between h (Nat.le_trans h₂ (Nat.le_trans h₃ h₄)) hreads.le hr'
  obtain ⟨c, hc, hnone⟩ := hactive j₄ hreads.le r₄ hr₄
  rw [hcustomer₄] at hc
  have hthere : customer = some c := by
    have hread : (tablesAt s.log j₄).customers.find? r'.customerId = some c := hc
    change exec (.findActiveCustomer r'.customerId) (tablesAt s.log j₄) = .ok (customer, []) at he₄
    simp only [exec, hread, Except.ok.injEq, Prod.mk.injEq] at he₄
    rw [← he₄.1]
    simp [hnone]
  subst hthere
  obtain ⟨-, hvalue⟩ := hreads.of_pure
  injection hvalue with hvalue
  refine ⟨j, c.toEntity, r'.toOrderColumns.toEntity services items, r', rfl, hlo, hj, hvalue, ?_, hr',
    rfl⟩
  have hid : r'.id = o := order_id hr'
  change r'.id.text = o.text
  rw [hid]

/-- A notice speaks of the order it was asked to announce. -/
theorem notice_subject {tables : ℕ → Db} {hi lo : ℕ} {osId : IdText} {js : List ℕ}
    {customer : Customer} {os : ServiceOrder}
    (hreads : Reads postgres tables hi lo (NotifyStatusChange.execute osId) js
      (.pure (some (customer, os)))) : ∃ o, osId.column? = some o ∧ os.id = o.text := by
  unfold NotifyStatusChange.execute ServiceOrderRepository.findById at hreads
  cases ho : osId.column? with
  | none =>
      rw [ho] at hreads
      obtain ⟨-, hvalue⟩ := hreads.of_pure
      cases hvalue
  | some o =>
      rw [ho] at hreads
      obtain ⟨j, found, rest, -, -, he, hreads⟩ := hreads.of_stmt
      cases found with
      | none =>
          obtain ⟨-, hvalue⟩ := hreads.of_pure
          cases hvalue
      | some row =>
          have hid : row.id = o := by
            change exec (.findOrder o) (tables j) = .ok (some row, []) at he
            simp only [exec, Except.ok.injEq, Prod.mk.injEq] at he
            obtain ⟨r, hr, rfl⟩ := Option.map_eq_some_iff.mp he.1
            exact order_id hr
          obtain ⟨j₂, services, rest₂, -, -, -, hreads⟩ := hreads.of_stmt
          obtain ⟨j₃, items, rest₃, -, -, -, hreads⟩ := hreads.of_stmt
          obtain ⟨j₄, found, rest₄, -, -, -, hreads⟩ := hreads.of_stmt
          cases found with
          | none =>
              obtain ⟨-, hvalue⟩ := hreads.of_pure
              cases hvalue
          | some row₄ =>
              obtain ⟨-, hvalue⟩ := hreads.of_pure
              cases hvalue
              refine ⟨o, rfl, ?_⟩
              rw [← hid]
              rfl

end Between

/-! ## One notice for each change -/

/-- The notices that were sent about order `o`. -/
def Announcing.sentFor (s : Announcing) (o : Uuid) :
    List (Delivery (Option (Customer × ServiceOrder))) :=
  s.delivered.filter fun n => n.value.any fun sent => sent.2.id = o.text

/-- The notices sent for order `o` are, one for one, the changes of status that
were committed after its opening, short of those still under way, and each
carries the status that its own operation committed. A message that is a
duplicate or ignored has none. -/
structure Announced (o : Uuid) (s : Announcing) : Prop where
  once : ((s.sentFor o).map (·.cause)).Nodup
  changed : ∀ n ∈ s.sentFor o, ∃ c, s.sys.log[n.cause]? = some c ∧ StatusMoved o c.tx c.before
  complete : ∀ k c, s.sys.log[k]? = some c → StatusMoved o c.tx c.before →
    (∃ n ∈ s.sentFor o, n.cause = k) ∨ ∃ f ∈ s.pending, f.cause = k
  applied : ∀ n ∈ s.sentFor o, ∀ c, s.sys.log[n.cause]? = some c → c.op.messageId.isSome = true →
    c.result.handled = some .applied
  itself : ∀ n ∈ s.sentFor o, ∀ c, s.sys.log[n.cause]? = some c →
    ∀ r, (c.after postgres).orders.find? o = some r →
      ∀ customer os, n.value = some (customer, os) → os.status = r.status

/-- No change of the status of `o` was committed between another one and the
moment the notice of that one read the order again. -/
def Undisturbed (o : Uuid) (s : Announcing) : Prop :=
  ∀ d ∈ s.delivered, ∀ c, s.sys.log[d.cause]? = some c → StatusMoved o c.tx c.before →
    ∀ j, d.readAt.head? = some j → Calm o s.sys.log (d.cause + 1) j

section Notices

variable {s : Announcing} {o : Uuid}

/-- A change of status was committed by an operation that applied its message. -/
theorem CommitFacts.applied {c : ShopCommit} (h : CommitFacts c)
    (hmoved : StatusMoved o c.tx c.before) (hmessage : c.op.messageId.isSome = true) :
    c.result.handled = some .applied := by
  cases h.committed.record with
  | none hid _ =>
      rw [hid] at hmessage
      cases hmessage
  | duplicate id m _ _ _ hwrites _ =>
      -- a duplicate writes nothing, so it moves no status
      refine absurd hmoved (not_statusMoved ?_)
      rw [hwrites]
      rfl
  | recorded id m _ _ _ _ hhandled =>
      rcases hhandled with happlied | ⟨-, row, hwrites⟩
      · exact happlied
      · refine absurd hmoved (not_statusMoved ?_)
        rw [hwrites]
        rfl

/-- The notice of a change of status that was delivered. -/
theorem notice_of_change (h : AnnouncingReachable s)
    (hactive : ∀ j, j ≤ s.sys.log.length → ActiveCustomer o (tablesAt s.sys.log j))
    {d : Delivery (Option (Customer × ServiceOrder))} (hd : d ∈ s.delivered) {c : ShopCommit}
    (hc : s.sys.log[d.cause]? = some c) (hmoved : StatusMoved o c.tx c.before) :
    ∃ j customer os r, d.readAt.head? = some j ∧ d.value = some (customer, os) ∧ os.id = o.text ∧
      (c.after postgres).orders.find? o = some r ∧
      (os.status = r.status ↔ Calm o s.sys.log (d.cause + 1) j) := by
  have hinv : FollowedInvariant postgres announce {} s := h.invariant rfl rfl rfl
  have hfacts := reachable_commitFacts h.sys c (List.mem_of_getElem? hc)
  obtain ⟨c', p, hc', hp, hreads⟩ := hinv.delivered d hd
  obtain rfl : c = c' := Option.some.inj (hc.symm.trans hc')
  obtain ⟨osId, hnotice, ho⟩ := (hfacts.announces o).mp hmoved
  obtain rfl : NotifyStatusChange.execute osId = p := by
    unfold announce at hp
    rw [hnotice] at hp
    exact Option.some.inj hp
  have hbefore : c.before = tablesAt s.sys.log d.cause := (h.sys.logged rfl).before d.cause c hc
  -- the notice reads the tables from the commit after its cause on
  have hafter : c.after postgres = tablesAt s.sys.log (d.cause + 1) := by
    rw [Commit.after, hbefore]
    exact (tablesAfter_succ hc).symm
  obtain ⟨r₀, r₁, hr₀, -, -⟩ := hmoved
  obtain ⟨r, hr, -⟩ := hfacts.order hr₀
  rw [hafter] at hr ⊢
  obtain ⟨j, customer, os, r', hhead, hlo, hj, hvalue, hid, hr', hstatus⟩ :=
    notice_reads h.sys ho hactive hr hreads
  obtain ⟨r'', hr'', -, -, hcalm⟩ := order_between h.sys hlo hj hr
  obtain rfl : r' = r'' := Option.some.inj (hr'.symm.trans hr'')
  exact ⟨j, customer, os, r, hhead, hvalue, hid, hr, by rw [hstatus]; exact hcalm⟩

/-- A notice that was sent for an order follows a change of its status. -/
theorem change_of_notice (h : AnnouncingReachable s)
    {n : Delivery (Option (Customer × ServiceOrder))} (hn : n ∈ s.sentFor o) :
    ∃ c, s.sys.log[n.cause]? = some c ∧ StatusMoved o c.tx c.before := by
  have hinv : FollowedInvariant postgres announce {} s := h.invariant rfl rfl rfl
  obtain ⟨hd, hsent⟩ := List.mem_filter.mp hn
  obtain ⟨c, p, hc, hp, hreads⟩ := hinv.delivered n hd
  refine ⟨c, hc, ?_⟩
  obtain ⟨osId, hnotice, rfl⟩ := Option.map_eq_some_iff.mp hp
  cases hvalue : n.value with
  | none =>
      rw [hvalue] at hsent
      cases hsent
  | some sent =>
      rw [hvalue] at hsent hreads
      obtain ⟨o', ho', hid'⟩ := notice_subject hreads
      have hid : sent.2.id = o.text := by simpa using hsent
      -- a notice names the order of its cause
      obtain rfl : o' = o := Uuid.text_inj.mp (hid'.symm.trans hid)
      exact ((reachable_commitFacts h.sys c (List.mem_of_getElem? hc)).announces o').mpr
        ⟨osId, hnotice, ho'⟩

/-- The notices of the changes of an order are those sent for it. -/
theorem mem_sentFor {d : Delivery (Option (Customer × ServiceOrder))} (hd : d ∈ s.delivered)
    {customer : Customer} {os : ServiceOrder} (hvalue : d.value = some (customer, os))
    (hid : os.id = o.text) : d ∈ s.sentFor o := by
  refine List.mem_filter.mpr ⟨hd, ?_⟩
  rw [hvalue]
  simpa using hid

/-- For every run in which the customer of an order stays active, whatever the
interleaving of the operations and of the notices: the changes of the status
of the order are announced as themselves, one notice for each, exactly when no
change is committed between another one and the moment the notice of that one
reads the order again. -/
theorem announced_iff_undisturbed (h : AnnouncingReachable s)
    (hactive : ∀ j, j ≤ s.sys.log.length → ActiveCustomer o (tablesAt s.sys.log j)) :
    Announced o s ↔ Undisturbed o s := by
  have hinv : FollowedInvariant postgres announce {} s := h.invariant rfl rfl rfl
  constructor
  · intro hannounced d hd c hc hmoved j hj
    obtain ⟨j', customer, os, r, hhead, hvalue, hid, hr, hcalm⟩ :=
      notice_of_change h hactive hd hc hmoved
    obtain rfl : j = j' := Option.some.inj (hj.symm.trans hhead)
    exact hcalm.mp (hannounced.itself d (mem_sentFor hd hvalue hid) c hc r hr customer os hvalue)
  · intro hcalm
    constructor
    · have hall : (s.delivered.map (·.cause)).Nodup := (List.nodup_append.mp hinv.nodup).2.1
      exact hall.sublist (List.filter_sublist.map _)
    · intro n hn
      exact change_of_notice h hn
    · intro k c hc hmoved
      obtain ⟨osId, hnotice, -⟩ :=
        ((reachable_commitFacts h.sys c (List.mem_of_getElem? hc)).announces o).mp hmoved
      have hp : announce c.op c.result = some (NotifyStatusChange.execute osId) := by
        rw [announce, hnotice]
        rfl
      -- every change has its notice: pending, or delivered with a customer to tell
      rcases hinv.complete hc hp with hpending | ⟨d, hd, rfl⟩
      · exact .inr hpending
      · obtain ⟨j, customer, os, r, -, hvalue, hid, -, -⟩ := notice_of_change h hactive hd hc hmoved
        exact .inl ⟨d, mem_sentFor hd hvalue hid, rfl⟩
    · intro n hn c hc hmessage
      obtain ⟨c', hc', hmoved⟩ := change_of_notice h hn
      obtain rfl : c = c' := Option.some.inj (hc.symm.trans hc')
      exact (reachable_commitFacts h.sys c (List.mem_of_getElem? hc)).applied hmoved hmessage
    · intro n hn c hc r hr customer os hvalue
      obtain ⟨c', hc', hmoved⟩ := change_of_notice h hn
      obtain rfl : c = c' := Option.some.inj (hc.symm.trans hc')
      have hd := (List.mem_filter.mp hn).1
      obtain ⟨j, customer', os', r', hhead, hvalue', -, hr', hiff⟩ :=
        notice_of_change h hactive hd hc hmoved
      obtain rfl : r' = r := Option.some.inj (hr'.symm.trans hr)
      rw [hvalue] at hvalue'
      cases hvalue'
      exact hiff.mpr (hcalm n hd c hc hmoved j hhead)

end Notices

/-- The moves of transactions. -/
def acts (ls : List (Label Op)) : List (FollowedLabel Op) := ls.map .act

/-- The first notice under way makes its four reads and is sent. -/
def sendFirst : List (FollowedLabel Op) := [.read 0, .read 0, .read 0, .read 0, .deliver 0]

/-- The first order is opened and taken up to its repair, and the notice of
each change is sent before the next change. -/
def repairMoves : List (FollowedLabel Op) :=
  List.flatten [acts openingMoves, acts (replyMoves 5 100 .diagnosisStarted [] 13), sendFirst,
    acts (replyMoves 6 101 .diagnosisCompleted [] 19), sendFirst,
    acts (replyMoves 7 102 .budgetApproved [] 16), sendFirst,
    acts (replyMoves 8 103 .paymentConfirmed [] 18), sendFirst,
    acts (replyMoves 9 104 .repairStarted [] 14), sendFirst]

/-- The repair is completed; then the order is delivered. -/
def completeMoves : List (FollowedLabel Op) := acts (replyMoves 10 105 .repairCompleted [] 14)

def deliverMoves : List (FollowedLabel Op) := acts (Label.session 11 (.deliverOS (Uuid.text 4)) 12)

/-- The statuses carried by the notices sent about order `o`. -/
def Announcing.statusesSent (s : Announcing) (o : Uuid) : List (Option OSStatus) :=
  (s.sentFor o).map fun n => n.value.map fun sent => sent.2.status

/-- On a run where the notice of each change is sent before the next change. -/
theorem announced_in_turn : ∃ s : Announcing, Announcing.start.play postgres program announce
      (repairMoves ++ completeMoves ++ sendFirst ++ deliverMoves ++ sendFirst) = some s ∧
    s.statusesSent 4 = [some .diagnosis, some .waitingApproval, some .approved, some .paid,
      some .execution, some .finished, some .delivered] ∧
    (Announced 4 s ↔ Undisturbed 4 s) := by
  -- the customer is active all along, up to the last commit
  have hplay : ∃ s ∈ Announcing.start.play postgres program announce
      (repairMoves ++ completeMoves ++ sendFirst ++ deliverMoves ++ sendFirst),
      Announcing.statusesSent s 4 = [some .diagnosis, some .waitingApproval, some .approved,
        some .paid, some .execution, some .finished, some .delivered] ∧
        ∀ j, j < s.sys.log.length + 1 → ActiveCustomer 4 (tablesAt s.sys.log j) := by
    decide +kernel
  obtain ⟨s, hs, hsent, hactive⟩ := hplay
  refine ⟨s, hs, hsent, announced_iff_undisturbed (followedReachable_of_play .init hs) ?_⟩
  intro j hj
  exact hactive j (Nat.lt_succ_of_le hj)

/-- When the order is delivered before the notice of its repair reads it, the
customer is told twice that it was delivered, and never that it is finished. -/
theorem delivery_overtakes_notice : ∃ s : Announcing, AnnouncingReachable s ∧
    (∀ j, j ≤ s.sys.log.length → ActiveCustomer 4 (tablesAt s.sys.log j)) ∧ s.pending = [] ∧
    s.statusesSent 4 = [some .diagnosis, some .waitingApproval, some .approved, some .paid,
      some .execution, some .delivered, some .delivered] ∧ ¬ Announced 4 s := by
  have hplay : ∃ s ∈ Announcing.start.play postgres program announce
      (repairMoves ++ completeMoves ++ deliverMoves ++ sendFirst ++ sendFirst),
      (∀ j, j < s.sys.log.length + 1 → ActiveCustomer 4 (tablesAt s.sys.log j)) ∧
        s.pending.isEmpty = true ∧
        Announcing.statusesSent s 4 = [some .diagnosis, some .waitingApproval, some .approved,
          some .paid, some .execution, some .delivered, some .delivered] ∧
        ∃ n ∈ Announcing.sentFor s 4, ∃ c ∈ s.sys.log[n.cause]?,
          ∃ r ∈ (c.after postgres).orders.find? 4, ∃ sent ∈ n.value, sent.2.status ≠ r.status := by
    decide +kernel
  obtain ⟨s, hs, hactive, hpending, hsent, n, hn, c, hc, r, hr, ⟨customer, os⟩, hvalue, hne⟩ := hplay
  refine ⟨s, followedReachable_of_play .init hs, fun j hj => hactive j (Nat.lt_succ_of_le hj),
    List.isEmpty_iff.mp hpending, hsent, fun hannounced => ?_⟩
  exact hne (hannounced.itself n hn c hc r hr customer os hvalue)

end CarRepairShop
