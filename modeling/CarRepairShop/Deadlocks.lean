import CarRepairShop.Lib.WaitsFor
import CarRepairShop.Statements
import CarRepairShop.Steps

/-! # Deadlocks

Which units of work can wait for each other in a circle. A unit of work that
writes an order takes its locks in three stages: the record of its message, the
rows of the items it moves, and the order (`Stmt.due`). Only the second stage
takes more than one lock, in the order in which the items are listed, so a
circle is one of item rows (`InOrder.item_wait`), and in it somebody takes the
items out of order (`InOrder.inversion`). Left out are the three units of work
that wait in the middle of a statement (`Op.waitsWithin`).
-/

namespace CarRepairShop

open Lib Txn Prog

/-! ## The stages of a unit of work -/

/-- What is held before an order is written: the record of the message and rows
of items. -/
def BeforeOrder (ws : List Write) : Prop :=
  ∀ w ∈ ws, (∃ row, w = .putProcessed row) ∨ ∃ i, IsItem i w

/-- What is held once order `o` is written: in addition, rows of that order and
the messages stored. -/
structure WithOrder (o : Uuid) (ws : List Write) : Prop where
  holds : ∃ w ∈ ws, IsOrder o w
  only : ∀ w ∈ ws, ((∃ row, w = .putProcessed row) ∨ ∃ i, IsItem i w) ∨
    (∃ row, w = .addOutbox row) ∨ IsOrder o w

/-- What may be held when a statement is issued. Units of a second item are
moved by some units of work only (`several`). -/
def Stmt.due (several : Bool) (ws : List Write) (s : Stmt) : Prop :=
  s.reads = true ∨ s.table = .outbox ∨ ws = [] ∨
    (several = true ∧ s.movesItem.isSome = true ∧ BeforeOrder ws) ∨
    (s.takesOrder.isSome = true ∧ BeforeOrder ws) ∨
    ∃ o, s.rewritesOrder = some o ∧ WithOrder o ws

/-- The units of work that move the units of all items of an order. -/
def Op.movesItems : Op → Bool
  | .createServiceOrder .. | .handle .. | .handleFailedCommand .. => true
  | _ => false

theorem BeforeOrder.nil : BeforeOrder [] := by
  intro w hw
  cases hw

/-- Items may be taken one after another. -/
theorem BeforeOrder.items {ws new : List Write} {i : Uuid} (h : BeforeOrder ws)
    (hnew : ∀ w ∈ new, IsItem i w) : BeforeOrder (ws ++ new) := by
  intro w hw
  rcases List.mem_append.mp hw with hw | hw
  · exact h w hw
  · exact Or.inr ⟨i, hnew w hw⟩

/-- Once the order is written, it is the one held. -/
theorem BeforeOrder.order {ws new : List Write} {o : Uuid} (h : BeforeOrder ws) (hne : new ≠ [])
    (hnew : ∀ w ∈ new, IsOrder o w) : WithOrder o (ws ++ new) where
  holds := by
    rcases List.exists_mem_of_ne_nil _ hne with ⟨w, hw⟩
    exact ⟨w, List.mem_append_right _ hw, hnew w hw⟩
  only := by
    intro w hw
    rcases List.mem_append.mp hw with hw | hw
    · exact Or.inl (h w hw)
    · exact Or.inr (Or.inr (hnew w hw))

/-- What is written on the order that is held changes nothing about what is held. -/
theorem WithOrder.order {ws new : List Write} {o : Uuid} (h : WithOrder o ws)
    (hnew : ∀ w ∈ new, IsOrder o w) : WithOrder o (ws ++ new) where
  holds := by
    rcases h.holds with ⟨w, hw, hord⟩
    exact ⟨w, List.mem_append_left _ hw, hord⟩
  only := by
    intro w hw
    rcases List.mem_append.mp hw with hw | hw
    · exact h.only w hw
    · exact Or.inr (Or.inr (hnew w hw))

section Stages

variable {several : Bool} {α : Type}

/-- The unit of work issues every statement at its stage. -/
abbrev InStages (several : Bool) (p : Work α) (ws : List Write) : Prop :=
  p.Follows postgres (Stmt.due several) (fun _ _ => True) ws

/-- Reads are due at any stage, and leave what is held. -/
theorem reads_follows {p : Work α} (h : p.Issues fun s => s.reads = true) (ws : List Write) :
    p.Follows postgres (Stmt.due several) (fun _ ws' => ws' = ws) ws :=
  h.follows (fun _ _ hs => Or.inl hs) (fun _ _ _ _ hs he => exec_reads hs he) ws

/-- A unit of work that starts with reads. -/
theorem InStages.after_reads {β : Type} {p : Work β} {f : β → Work α} {ws : List Write}
    (hp : p.Issues fun s => s.reads = true) (hf : ∀ b, InStages several (f b) ws) :
    InStages several (p >>= f) ws := by
  refine (reads_follows hp ws).seq fun b ws' hws => ?_
  rw [hws]
  exact hf b

/-- A unit of work that issues a single statement, after reads, and holds nothing before. -/
theorem outbox_inStages {p : Work α} (h : p.Issues fun s => s.table = .outbox) (ws : List Write) :
    InStages several p ws := by
  induction p generalizing ws with
  | pure a => trivial
  | throw e => trivial
  | draw k ih => exact fun n => ih n (h n) ws
  | clock k ih => exact fun n => ih n (h n) ws
  | stmt s refused k ih =>
      exact ⟨Or.inr (Or.inl h.1), fun v r new he => ih r (h.2 r) (ws ++ new)⟩

/-! ### Items -/

/-- Units are moved before the order is written, and by most units of work of a first item
only. -/
theorem movesItem_follows {id : IdText} {s : Uuid → Stmt} (hs : ∀ key, (s key).movesItem = some key)
    {k : ∀ key, (s key).Resp → Bool} {ws : List Write} (h : BeforeOrder ws)
    (hfirst : several = true ∨ ws = []) :
    Follows postgres (Stmt.due several) (fun _ ws' => BeforeOrder ws')
      (match id.column? with
        | none => .pure false
        | some key => sql (s key) >>= fun r => .pure (k key r)) ws := by
  cases id.column? with
  | none => exact h
  | some key =>
      refine ⟨?_, fun v r new he => h.items (exec_movesItem (hs key) r new he)⟩
      rcases hfirst with hseveral | hnil
      · exact Or.inr (Or.inr (Or.inr (Or.inl ⟨hseveral, by rw [hs]; rfl, h⟩)))
      · exact Or.inr (Or.inr (Or.inl hnil))

theorem ItemRepository.reserve_follows (id : IdText) (quantity : ℤ) {ws : List Write}
    (h : BeforeOrder ws) (hfirst : several = true ∨ ws = []) :
    (reserve id quantity).Follows postgres (Stmt.due several) (fun _ ws' => BeforeOrder ws') ws :=
  movesItem_follows (s := (.reserveItem · quantity)) (fun _ => rfl) h hfirst

theorem ItemRepository.release_follows (id : IdText) (quantity : ℤ) {ws : List Write}
    (h : BeforeOrder ws) (hfirst : several = true ∨ ws = []) :
    (release id quantity).Follows postgres (Stmt.due several) (fun _ ws' => BeforeOrder ws') ws :=
  movesItem_follows (s := (.releaseItem · quantity)) (fun _ => rfl) h hfirst

theorem ItemRepository.consume_follows (id : IdText) (quantity : ℤ) {ws : List Write}
    (h : BeforeOrder ws) (hfirst : several = true ∨ ws = []) :
    (consume id quantity).Follows postgres (Stmt.due several) (fun _ ws' => BeforeOrder ws') ws :=
  movesItem_follows (s := (.consumeItem · quantity)) (fun _ => rfl) h hfirst

/-! ### Orders -/

/-- One more statement on the order that is held. -/
theorem rewritesOrder_follows {s : Stmt} {o : Uuid} (hs : s.rewritesOrder = some o)
    {ws : List Write} (h : WithOrder o ws) {k : s.Resp → Work α} {Q : α → List Write → Prop}
    (hk : ∀ r ws', WithOrder o ws' → (k r).Follows postgres (Stmt.due several) Q ws') :
    (sql s >>= k).Follows postgres (Stmt.due several) Q ws := by
  refine ⟨Or.inr (Or.inr (Or.inr (Or.inr (Or.inr ⟨o, hs, h⟩)))), fun v r new he => ?_⟩
  exact hk r _ (h.order (exec_rewritesOrder hs r new he))

/-- Reading the lines of an order keeps what is held. -/
theorem ServiceOrderRepository.includeRelations_keeps {o : Uuid} {ws : List Write}
    (h : WithOrder o ws) (row : OrderColumns) :
    (includeRelations row).Follows postgres (Stmt.due several) (fun _ ws' => WithOrder o ws') ws := by
  refine (reads_follows (includeRelations_reads row) ws).mono (fun _ _ h => h) fun order ws' hws => ?_
  rw [hws]
  exact h

/-- Everything an update does once the version is claimed. -/
theorem ServiceOrderRepository.rewrite_inStages {o : Uuid} {ws : List Write} (h : WithOrder o ws)
    (data : ServiceOrderChanges) (previous : OSStatus) :
    InStages several (replaceServices o data.services >>= fun _ =>
      replaceItems o data.items >>= fun _ =>
        sql (.updateOrder o data.toOrderScalar) >>= fun columns =>
          includeRelations columns >>= fun order =>
            recordChange o previous data.status >>= fun _ =>
              (Prog.pure (some order) : Work (Option ServiceOrder))) ws := by
  have hservices : (replaceServices o data.services).Follows postgres (Stmt.due several)
      (fun _ ws' => WithOrder o ws') ws := by
    cases data.services with
    | none => exact h
    | some services =>
        exact rewritesOrder_follows (s := .deleteServiceLines o) rfl h fun _ ws₁ h₁ =>
          rewritesOrder_follows (s := .createServiceLines o services) rfl h₁ fun _ ws₂ h₂ => h₂
  have hitems : ∀ ws', WithOrder o ws' → (replaceItems o data.items).Follows postgres
      (Stmt.due several) (fun _ ws' => WithOrder o ws') ws' := by
    intro ws' h'
    cases data.items with
    | none => exact h'
    | some items =>
        exact rewritesOrder_follows (s := .deleteItemLines o) rfl h' fun _ ws₁ h₁ =>
          rewritesOrder_follows (s := .createItemLines o items) rfl h₁ fun _ ws₂ h₂ => h₂
  have hrecord : ∀ ws', WithOrder o ws' → InStages several
      (recordChange o previous data.status) ws' := by
    intro ws' h'
    unfold recordChange
    cases data.status with
    | none => trivial
    | some status =>
        dsimp only
        split
        · trivial
        · intro changedAt
          exact rewritesOrder_follows (s := .insertHistory o _) rfl h' fun _ _ _ => trivial
  refine hservices.seq fun _ ws₁ h₁ => (hitems ws₁ h₁).seq fun _ ws₂ h₂ => ?_
  refine rewritesOrder_follows (s := .updateOrder o data.toOrderScalar) rfl h₂ fun columns ws₃ h₃ => ?_
  refine (includeRelations_keeps h₃ columns).seq fun order ws₄ h₄ => ?_
  exact (hrecord ws₄ h₄).seq fun _ _ _ => trivial

/-- The claim of the version takes the order; when it claims nothing, nothing more is
written. -/
theorem ServiceOrderRepository.update_inStages (id : IdText) (data : ServiceOrderChanges)
    (expectedVersion : Option ℕ) {ws : List Write} (h : BeforeOrder ws) :
    InStages several (update id data expectedVersion) ws := by
  unfold update
  cases id.column? with
  | none => trivial
  | some key =>
      refine ⟨Or.inr (Or.inr (Or.inr (Or.inr (Or.inl ⟨rfl, h⟩)))), fun v claimed new he => ?_⟩
      have hnew := exec_takesOrder (s := .claimVersion key expectedVersion) rfl claimed new he
      change Follows postgres _ _ (if claimed = 0 then _ else _) _
      split
      · -- nothing was claimed, so what is left is a read
        refine ⟨Or.inl rfl, fun v existing new' he' => ?_⟩
        change Follows postgres _ _ (if existing = 0 then _ else _) _
        split <;> trivial
      · next hclaimed =>
        have hne : new ≠ [] := by
          rintro rfl
          apply hclaimed
          change exec (.claimVersion key expectedVersion) v = _ at he
          simp only [exec] at he
          split at he
          · cases he
            rfl
          · split at he
            · rcases map_ok he with ⟨ws', hst, heq⟩
              rcases storeOrder_ok hst with ⟨hc, rfl⟩
              cases heq
            · cases he
              rfl
        have hwith := h.order hne hnew
        refine ⟨Or.inl rfl, fun v previous new' he' => ?_⟩
        rw [exec_reads (s := .findStatusOrThrow key) rfl he', List.append_nil]
        exact rewrite_inStages hwith data previous

/-- The insertion takes the new order, and its lines and its first history row follow. -/
theorem ServiceOrderRepository.create_inStages (data : NewServiceOrder) {ws : List Write}
    (h : BeforeOrder ws) : InStages several (create data) ws := by
  intro o createdAt
  refine ⟨Or.inr (Or.inr (Or.inr (Or.inr (Or.inl ⟨rfl, h⟩)))), fun v row new he => ?_⟩
  have hne : new ≠ [] := by
    rcases insertOrder_ok he with ⟨-, row, hc, rfl, -⟩
    simp
  have hwith := h.order hne (exec_takesOrder (s := .insertOrder o data.customerId data.vehicleId
    data.status data.budgetTotal createdAt) rfl row new he)
  refine rewritesOrder_follows (s := .createServiceLines o data.services) rfl hwith fun _ ws₁ h₁ =>
    rewritesOrder_follows (s := .createItemLines o data.items) rfl h₁ fun _ ws₂ h₂ => ?_
  refine (includeRelations_keeps h₂ row).seq fun order ws₃ h₃ => ?_
  intro changedAt
  exact rewritesOrder_follows (s := .insertHistory o _) rfl h₃ fun _ _ _ => trivial

/-- A message may be stored at any stage, since nobody waits for its row. -/
theorem Outbox.add_inStages (traceparent : Option String) (message : OutgoingMessage)
    (ws : List Write) : InStages several (Outbox.add traceparent message) ws := by
  refine outbox_inStages ?_ ws
  unfold Outbox.add
  cases message.serviceOrderId.stored? with
  | none => trivial
  | some key => exact fun id createdAt => ⟨rfl, fun _ => trivial⟩

/-- An opening reserves the items of all lines before it inserts the order. -/
theorem CreateServiceOrder.execute_inStages (input : CreateServiceOrderInput)
    (traceparent : Option String) : InStages true (execute input traceparent) [] := by
  have hresolve : (resolveServices input.services).Issues fun s => s.reads = true := by
    refine Issues.each (fun serviceId => ?_) _
    refine (ServiceRepository.findById_issues (fun _ => rfl) serviceId).bind fun service => ?_
    cases service <;> trivial
  refine InStages.after_reads hresolve fun services => ?_
  refine Follows.seq (Follows.each (I := BeforeOrder) ?_ _ .nil) fun items ws₁ h₁ => ?_
  · intro line ws h
    refine (reads_follows (ItemRepository.findById_issues (fun _ => rfl) line.itemId) ws).seq
      fun item ws' hws => ?_
    subst hws
    cases item with
    | none => trivial
    | some item =>
        refine (ItemRepository.reserve_follows _ _ h (Or.inl rfl)).seq fun reserved ws₁ h₁ => ?_
        cases reserved with
        | false => trivial
        | true => exact h₁
  · refine (ServiceOrderRepository.create_inStages _ h₁).seq fun order ws₂ _ => ?_
    exact (Outbox.add_inStages traceparent _ ws₂).seq fun _ _ _ => trivial

/-! ### The saga -/

namespace ServiceOrderSaga

/-- A change of status is an update, after a check that issues nothing. -/
theorem moveTo_inStages (order : ServiceOrder) (status : OSStatus) (changes : ServiceOrderChanges)
    {ws : List Write} (h : BeforeOrder ws) : InStages several (moveTo order status changes) ws := by
  refine InStages.after_reads (ofExcept_reads _) fun _ => ?_
  refine (ServiceOrderRepository.update_inStages _ _ _ h).seq fun updated ws' _ => ?_
  cases updated <;> trivial

/-- A release goes through the items in the order of the lines, and keeps all of them. -/
theorem releaseReservations_follows (order : ServiceOrder) {ws : List Write} (h : BeforeOrder ws) :
    (releaseReservations order).Follows postgres (Stmt.due true) (fun _ ws' => BeforeOrder ws')
      ws := by
  refine (Follows.each (I := BeforeOrder) ?_ _ h).seq fun _ ws' h' => h'
  intro line ws h
  refine (ItemRepository.release_follows _ _ h (Or.inl rfl)).seq fun released ws' h' => ?_
  cases released with
  | false => trivial
  | true => exact h'

theorem cancelStep_inStages (traceparent : Option String) (order : ServiceOrder)
    (cancel : List CancelTarget) (target : CancelTarget) (ws : List Write) :
    InStages several (cancelStep traceparent order cancel target) ws := by
  unfold cancelStep
  split
  · cases target with
    | execution => exact Outbox.add_inStages traceparent _ ws
    | budget => exact Outbox.add_inStages traceparent _ ws
  · trivial

/-- A failure releases the items, moves the order and stores the cancellations, in this
order. -/
theorem stepFailed_inStages (traceparent : Option String) (order : ServiceOrder)
    (cancel : List CancelTarget) {ws : List Write} (h : BeforeOrder ws) :
    InStages true (stepFailed traceparent order cancel) ws := by
  refine (releaseReservations_follows order h).seq fun _ ws₁ h₁ => ?_
  refine (moveTo_inStages order _ _ h₁).seq fun updated ws₂ _ => ?_
  refine (cancelStep_inStages traceparent order cancel .execution ws₂).seq fun _ ws₃ _ => ?_
  exact (cancelStep_inStages traceparent order cancel .budget ws₃).seq fun _ _ _ => trivial

/-- Moving the order and storing one command. -/
theorem moveAndSend_inStages (traceparent : Option String) (order : ServiceOrder)
    (status : OSStatus) (message : OutgoingMessage) {ws : List Write} (h : BeforeOrder ws) :
    InStages several (moveTo order status >>= fun updated =>
      Outbox.add traceparent message >>= fun _ => (Prog.pure updated : Work ServiceOrder)) ws := by
  refine (moveTo_inStages order status _ h).seq fun updated ws₁ _ => ?_
  exact (Outbox.add_inStages traceparent _ ws₁).seq fun _ _ _ => trivial

/-- So does every reply: items first, then the order, then the messages. -/
theorem apply_inStages (traceparent : Option String) (order : ServiceOrder) (reply : SagaReply)
    {ws : List Write} (h : BeforeOrder ws) : InStages true (apply traceparent order reply) ws := by
  unfold apply
  cases reply.type with
  | diagnosisStarted => exact moveTo_inStages order _ _ h
  | diagnosisCompleted =>
      exact InStages.after_reads (budgetCommandFor_reads order) fun _ =>
        moveAndSend_inStages traceparent order _ _ h
  | budgetGenerated =>
      dsimp only
      unfold budgetGenerated
      split
      · refine (ServiceOrderRepository.update_inStages _ _ _ h).seq fun updated ws' _ => ?_
        cases updated <;> trivial
      · trivial
  | budgetApproved => exact moveAndSend_inStages traceparent order _ _ h
  | budgetRejected =>
      exact (releaseReservations_follows order h).seq fun _ ws₁ h₁ =>
        moveAndSend_inStages traceparent order _ _ h₁
  | paymentConfirmed =>
      refine Follows.seq (Follows.each (I := BeforeOrder) ?_ _ h) fun _ ws₁ h₁ =>
        InStages.after_reads (repairCommandFor_reads order) fun _ =>
          moveAndSend_inStages traceparent order _ _ h₁
      intro line ws h
      refine (ItemRepository.consume_follows _ _ h (Or.inl rfl)).seq fun consumed ws' h' => ?_
      cases consumed with
      | false => trivial
      | true => exact h'
  | paymentFailed =>
      refine (releaseReservations_follows order h).seq fun _ ws₁ h₁ => ?_
      refine (moveTo_inStages order _ _ h₁).seq fun updated ws₂ _ => ?_
      refine (Outbox.add_inStages traceparent _ ws₂).seq fun _ ws₃ _ => ?_
      exact (Outbox.add_inStages traceparent _ ws₃).seq fun _ _ _ => trivial
  | repairStarted => exact fun startedAt => moveTo_inStages order _ _ h
  | repairCompleted => exact fun finishedAt => moveTo_inStages order _ _ h
  | executionCancelled => trivial
  | budgetCancelled => trivial

/-- Every message is recorded before anything else is taken. -/
theorem process_inStages (message : SagaMessage) (expected : Expected)
    {effect : ServiceOrder → Work Effect}
    (heffect : ∀ order ws, BeforeOrder ws → InStages true (effect order) ws) :
    InStages true (process message expected effect) [] := by
  intro processedAt
  refine ⟨Or.inr (Or.inr (Or.inl rfl)), fun v count new he => ?_⟩
  have hrecord : BeforeOrder ([] ++ new) := by
    intro w hw
    have hmakes := exec_makes (.insertProcessed message.messageId message.type processedAt) v
      count new he w hw
    cases w with
    | putProcessed row => exact Or.inl ⟨row, rfl⟩
    | _ => cases hmakes
  change Follows postgres _ _ (if !decide (count = 1) then _ else _) _
  -- a message that was handled before ends here
  split
  · trivial
  · refine InStages.after_reads (ServiceOrderRepository.findById_reads _) fun found => ?_
    cases found with
    | none => trivial
    | some order =>
        dsimp only
        split
        · trivial
        · exact (heffect order _ hrecord).seq fun _ _ _ => trivial

theorem handle_inStages (reply : SagaReply) (traceparent : Option String) :
    InStages true (handle reply traceparent) [] :=
  process_inStages _ _ fun order _ h =>
    (apply_inStages traceparent order reply h).seq fun _ _ _ => trivial

theorem handleFailedCommand_inStages (command : FailedSagaCommand) (traceparent : Option String) :
    InStages true (handleFailedCommand command traceparent) [] := by
  refine process_inStages _ _ fun order _ h => ?_
  unfold failedCommandEffect
  split
  · trivial
  · exact (stepFailed_inStages traceparent order _ h).seq fun _ _ _ => trivial

end ServiceOrderSaga

/-! ### Line editors and delivery -/

/-- An editor takes one item at most, and then the order. -/
theorem AddItemToOS.execute_inStages (osId itemId : IdText) (quantity : ℤ) :
    InStages several (execute osId itemId quantity) [] := by
  refine InStages.after_reads (findOSOrThrow_reads osId) fun os => ?_
  split
  · trivial
  · refine InStages.after_reads (ItemRepository.findById_issues (fun _ => rfl) itemId) fun item => ?_
    cases item with
    | none => trivial
    | some item =>
        refine (ItemRepository.reserve_follows itemId quantity .nil (Or.inr rfl)).seq
          fun reserved ws₁ h₁ => ?_
        cases reserved with
        | false => trivial
        | true => exact ServiceOrderRepository.update_inStages _ _ _ h₁

theorem ItemRepository.update_follows (id : IdText) (data : ItemPatch) :
    (update id data).Follows postgres (Stmt.due several) (fun _ ws' => BeforeOrder ws') [] := by
  unfold update
  cases id.column? with
  | none => exact .nil
  | some key =>
      refine ⟨Or.inl rfl, fun v existing new he => ?_⟩
      rw [exec_reads (s := .findItem key) rfl he]
      cases existing with
      | none => exact .nil
      | some row =>
          refine ⟨Or.inr (Or.inr (Or.inl rfl)), fun v r new he => ?_⟩
          intro w hw
          have hmakes := exec_makes (.updateItem key data) v r new he w hw
          cases w with
          | putItem row' hc => exact Or.inr ⟨row'.id, row', hc, rfl, rfl⟩
          | _ => cases hmakes

/-- The counter is written before the order is. -/
theorem RemoveItemFromOS.execute_inStages (osId itemId : IdText) :
    InStages several (execute osId itemId) [] := by
  refine InStages.after_reads (findOSOrThrow_reads osId) fun os => ?_
  split
  · trivial
  · split
    · trivial
    · refine InStages.after_reads (ItemRepository.findById_issues (fun _ => rfl) itemId) fun item => ?_
      cases item with
      | none => exact ServiceOrderRepository.update_inStages _ _ _ .nil
      | some item =>
          exact (ItemRepository.update_follows itemId _).seq fun _ ws₁ h₁ =>
            ServiceOrderRepository.update_inStages _ _ _ h₁

theorem AddServiceToOS.execute_inStages (osId serviceId : IdText) :
    InStages several (execute osId serviceId) [] := by
  refine InStages.after_reads (findOSOrThrow_reads osId) fun os => ?_
  split
  · trivial
  · refine InStages.after_reads (ServiceRepository.findById_issues (fun _ => rfl) serviceId)
      fun service => ?_
    cases service with
    | none => trivial
    | some service =>
        dsimp only
        split
        · trivial
        · exact ServiceOrderRepository.update_inStages _ _ _ .nil

theorem RemoveServiceFromOS.execute_inStages (osId serviceId : IdText) :
    InStages several (execute osId serviceId) [] := by
  refine InStages.after_reads (findOSOrThrow_reads osId) fun os => ?_
  split
  · trivial
  · split
    · exact ServiceOrderRepository.update_inStages _ _ _ .nil
    · trivial

theorem DeliverOS.execute_inStages (osId : IdText) : InStages several (execute osId) [] :=
  InStages.after_reads (findOSOrThrow_reads osId) fun _ =>
    InStages.after_reads (ofExcept_reads _) fun _ _ =>
      ServiceOrderRepository.update_inStages _ _ _ .nil

/-! ### The catalogue and the registry -/

/-- A unit of work that issues at most one statement that writes, with reads
before and after it. -/
def OneWrite : Work α → Prop
  | .pure _ => True
  | .throw _ => True
  | .draw k => ∀ n, OneWrite (k n)
  | .clock k => ∀ n, OneWrite (k n)
  | .stmt s _ k =>
      (s.reads = true ∧ ∀ r, OneWrite (k r)) ∨ ∀ r, (k r).Issues fun s => s.reads = true

theorem OneWrite.of_reads {p : Work α} (h : p.Issues fun s => s.reads = true) : OneWrite p := by
  induction p with
  | pure a => trivial
  | throw e => trivial
  | draw k ih => exact fun n => ih n (h n)
  | clock k ih => exact fun n => ih n (h n)
  | stmt s refused k ih => exact Or.inl ⟨h.1, fun r => ih r (h.2 r)⟩

/-- What follows the one write may only read. -/
theorem OneWrite.bind {β : Type} {p : Work α} {f : α → Work β} (h : OneWrite p)
    (hf : ∀ a, (f a).Issues fun s => s.reads = true) : OneWrite (p >>= f) := by
  change OneWrite (p.bind f)
  induction p with
  | pure a => exact .of_reads (hf a)
  | throw e => trivial
  | draw k ih => exact fun n => ih n (h n)
  | clock k ih => exact fun n => ih n (h n)
  | stmt s refused k ih =>
      rcases h with ⟨hs, hk⟩ | hk
      · exact Or.inl ⟨hs, fun r => ih r (hk r)⟩
      · exact Or.inr fun r => (hk r).bind hf

/-- What comes before it may only read, too. -/
theorem OneWrite.after_reads {β : Type} {p : Work α} {f : α → Work β}
    (h : p.Issues fun s => s.reads = true) (hf : ∀ a, OneWrite (f a)) : OneWrite (p >>= f) := by
  change OneWrite (p.bind f)
  induction p with
  | pure a => exact hf a
  | throw e => trivial
  | draw k ih => exact fun n => ih n (h n)
  | clock k ih => exact fun n => ih n (h n)
  | stmt s refused k ih => exact Or.inl ⟨h.1, fun r => ih r (h.2 r)⟩

/-- Its one write is issued while nothing is held. -/
theorem OneWrite.inStages {p : Work α} (h : OneWrite p) : InStages several p [] := by
  induction p with
  | pure a => trivial
  | throw e => trivial
  | draw k ih => exact fun n => ih n (h n)
  | clock k ih => exact fun n => ih n (h n)
  | stmt s refused k ih =>
      rcases h with ⟨hs, hk⟩ | hk
      · refine ⟨Or.inl hs, fun v r new he => ?_⟩
        rw [exec_reads hs he]
        exact ih r (hk r)
      · refine ⟨Or.inr (Or.inr (Or.inl rfl)), fun v r new he => ?_⟩
        exact (reads_follows (hk r) _).mono (fun _ _ h => h) fun _ _ _ => trivial

/-- A row that is looked up by its id, and then written if it is there. -/
theorem OneWrite.lookedUp {id : IdText} {missing : α} {s : Uuid → Stmt}
    {k : ∀ key, (s key).Resp → Work α} (hs : ∀ key, (s key).reads = true)
    (hk : ∀ key found, OneWrite (k key found)) :
    OneWrite (match id.column? with
      | none => .pure missing
      | some key => sql (s key) >>= k key) := by
  cases id.column? with
  | none => trivial
  | some key => exact Or.inl ⟨hs key, hk key⟩

theorem ItemRepository.update_oneWrite (id : IdText) (data : ItemPatch) :
    OneWrite (update id data) := by
  refine OneWrite.lookedUp (fun _ => rfl) fun key existing => ?_
  cases existing with
  | none => trivial
  | some row => exact Or.inr fun _ => trivial

/-- The catalogue and the registry write one row each, after a lookup; so a session of
theirs never waits while it holds something. -/
theorem UpdateItem.execute_oneWrite (id : IdText) (data : UpdateItemInput) :
    OneWrite (execute id data) := by
  unfold execute
  split
  · trivial
  · split
    · trivial
    · refine (ItemRepository.update_oneWrite id _).bind fun updated => ?_
      cases updated <;> trivial

theorem CreateItem.execute_oneWrite (name : String) (price : ℚ) (stockQuantity : ℤ) :
    OneWrite (execute name price stockQuantity) := by
  unfold execute
  split
  · trivial
  · split
    · trivial
    · exact fun id => Or.inr fun row => trivial

theorem DeleteItem.execute_oneWrite (id : IdText) : OneWrite (execute id) := by
  refine OneWrite.after_reads (ItemRepository.findById_issues (fun _ => rfl) id) fun item => ?_
  cases item with
  | none => trivial
  | some item =>
      dsimp only
      split
      · trivial
      · refine OneWrite.bind (OneWrite.lookedUp (fun _ => rfl) fun key existing => ?_)
          fun deleted => trivial
        cases existing with
        | none => trivial
        | some row => exact Or.inr fun _ => trivial

theorem UpdateService.execute_oneWrite (id : IdText) (data : ServicePatch) :
    OneWrite (execute id data) := by
  refine OneWrite.bind (OneWrite.lookedUp (fun _ => rfl) fun key existing => ?_)
    fun updated => by cases updated <;> trivial
  cases existing with
  | none => trivial
  | some row => exact Or.inr fun _ => trivial

theorem DeleteService.execute_oneWrite (id : IdText) : OneWrite (execute id) := by
  refine OneWrite.bind (OneWrite.lookedUp (fun _ => rfl) fun key existing => ?_)
    fun deleted => by cases deleted <;> trivial
  cases existing with
  | none => trivial
  | some row => exact Or.inr fun _ => trivial

/-- The search by document comes first, then the insertion. -/
theorem CreateCustomer.execute_oneWrite (input : CreateCustomerInput) :
    OneWrite (execute input) := by
  unfold execute
  split
  · trivial
  · dsimp only
    split
    · trivial
    · refine Or.inl ⟨rfl, fun existing => ?_⟩
      cases existing with
      | some customer => trivial
      | none => exact fun id createdAt => Or.inr fun row => trivial

theorem UpdateCustomer.execute_oneWrite (id : IdText) (data : CustomerPatch) :
    OneWrite (execute id data) := by
  unfold execute
  split
  · trivial
  · split
    · trivial
    · refine OneWrite.bind (OneWrite.lookedUp (fun _ => rfl) fun key existing => ?_)
        fun updated => by cases updated <;> trivial
      cases existing with
      | none => trivial
      | some row => exact fun updatedAt => Or.inr fun _ => trivial

theorem DeleteCustomer.execute_oneWrite (id : IdText) : OneWrite (execute id) := by
  refine OneWrite.bind (OneWrite.lookedUp (fun _ => rfl) fun key existing => ?_)
    fun deleted => by cases deleted <;> trivial
  cases existing with
  | none => trivial
  | some row => exact fun deletedAt => Or.inr fun _ => trivial

theorem CreateVehicle.execute_oneWrite (input : CreateVehicleInput) :
    OneWrite (execute input) := by
  unfold execute
  split
  · trivial
  · refine Or.inl ⟨rfl, fun existing => ?_⟩
    cases existing with
    | some vehicle => trivial
    | none => exact fun id => Or.inr fun row => trivial

/-- The plate is looked up before the vehicle is, and both only read. -/
theorem UpdateVehicle.execute_oneWrite (id : IdText) (data : VehiclePatch) :
    OneWrite (execute id data) := by
  refine OneWrite.after_reads ?_ fun _ => OneWrite.bind ?_ fun updated => by cases updated <;> trivial
  · cases data.plate with
    | none => trivial
    | some plate =>
        unfold UpdateVehicle.checkPlate
        dsimp only
        split
        · trivial
        · refine ⟨rfl, fun existing => ?_⟩
          change Issues _ (if _ then _ else _)
          split <;> trivial
  · refine OneWrite.lookedUp (fun _ => rfl) fun key existing => ?_
    cases existing with
    | none => trivial
    | some row => exact Or.inr fun _ => trivial

theorem DeleteVehicle.execute_oneWrite (id : IdText) : OneWrite (execute id) := by
  refine OneWrite.bind (OneWrite.lookedUp (fun _ => rfl) fun key existing => ?_)
    fun deleted => by cases deleted <;> trivial
  cases existing with
  | none => trivial
  | some row => exact Or.inr fun _ => trivial

/-! ### Every operation -/

/-- What an operation returns does not change what it holds. -/
theorem returning_inStages {p : Work α} {f : α → Outcome} (h : InStages several p []) :
    InStages several (returning p f) [] :=
  h.seq fun _ _ _ => trivial

/-- Every unit of work takes its locks in stages; only those that open an order or handle a
message take several items. -/
theorem program_inStages (op : Op) : InStages op.movesItems (program op) [] := by
  cases op with
  | createServiceOrder input traceparent =>
      exact returning_inStages (CreateServiceOrder.execute_inStages input traceparent)
  | addItemToOS osId itemId quantity =>
      exact returning_inStages (AddItemToOS.execute_inStages osId itemId quantity)
  | removeItemFromOS osId itemId =>
      exact returning_inStages (RemoveItemFromOS.execute_inStages osId itemId)
  | addServiceToOS osId serviceId =>
      exact returning_inStages (AddServiceToOS.execute_inStages osId serviceId)
  | removeServiceFromOS osId serviceId =>
      exact returning_inStages (RemoveServiceFromOS.execute_inStages osId serviceId)
  | deliverOS osId => exact returning_inStages (DeliverOS.execute_inStages osId)
  | handle reply traceparent =>
      exact returning_inStages (ServiceOrderSaga.handle_inStages reply traceparent)
  | handleFailedCommand command traceparent =>
      exact returning_inStages (ServiceOrderSaga.handleFailedCommand_inStages command traceparent)
  | createItem name price stockQuantity =>
      exact returning_inStages (CreateItem.execute_oneWrite name price stockQuantity).inStages
  | updateItem id data => exact returning_inStages (UpdateItem.execute_oneWrite id data).inStages
  | deleteItem id => exact returning_inStages (DeleteItem.execute_oneWrite id).inStages
  | createService name price estimatedMinutes =>
      exact returning_inStages (fun id => ⟨Or.inr (Or.inr (Or.inl rfl)), fun _ _ _ _ => trivial⟩)
  | updateService id data =>
      exact returning_inStages (UpdateService.execute_oneWrite id data).inStages
  | deleteService id => exact returning_inStages (DeleteService.execute_oneWrite id).inStages
  | createCustomer input => exact returning_inStages (CreateCustomer.execute_oneWrite input).inStages
  | updateCustomer id data =>
      exact returning_inStages (UpdateCustomer.execute_oneWrite id data).inStages
  | deleteCustomer id => exact returning_inStages (DeleteCustomer.execute_oneWrite id).inStages
  | createVehicle input => exact returning_inStages (CreateVehicle.execute_oneWrite input).inStages
  | updateVehicle id data =>
      exact returning_inStages (UpdateVehicle.execute_oneWrite id data).inStages
  | deleteVehicle id => exact returning_inStages (DeleteVehicle.execute_oneWrite id).inStages

end Stages

/-! ## Cycles -/

/-- Records of messages, items and orders are locked apart from each other. -/
theorem not_conflicts_record {row : ProcessedRow} {w : Write} {o : Uuid} (h : IsOrder o w) :
    (Write.putProcessed row).conflicts w = false := by
  rcases h with ⟨r, hc, rfl, -⟩
  simp [Write.conflicts, Write.locks]

theorem not_conflicts_item {v w : Write} {i o : Uuid} (hv : IsItem i v) (hw : IsOrder o w) :
    v.conflicts w = false := by
  rcases hv with ⟨row, hc, rfl, -⟩
  rcases hw with ⟨r, hc', rfl, -⟩
  simp [Write.conflicts, Write.locks, LockMode.conflicts]

theorem not_conflicts_record_item {row : ProcessedRow} {w : Write} {i : Uuid} (h : IsItem i w) :
    (Write.putProcessed row).conflicts w = false := by
  rcases h with ⟨r, hc, rfl, -⟩
  simp [Write.conflicts, Write.locks]

/-- Two writes of items exclude each other when they are of one item. -/
theorem conflicts_items {v w : Write} {i j : Uuid} (hv : IsItem i v) (hw : IsItem j w) :
    v.conflicts w = true ↔ i = j := by
  rcases hv with ⟨row, hc, rfl, rfl⟩
  rcases hw with ⟨row', hc', rfl, rfl⟩
  simp [Write.conflicts, Write.locks, LockMode.conflicts]

/-- So do two writes of orders, whatever else the rows refer to. -/
theorem conflicts_orders {v w : Write} {o o' : Uuid} (hv : IsOrder o v) (hw : IsOrder o' w) :
    v.conflicts w = true ↔ o = o' := by
  rcases hv with ⟨row, hc, rfl, rfl⟩
  rcases hw with ⟨row', hc', rfl, rfl⟩
  simp [Write.conflicts, Write.locks, LockMode.conflicts]

section Cycles

variable {s : ShopSys}

/-- What a reachable state says of the sessions: each issues its next statement
at its stage, and no two hold conflicting writes. -/
structure InOrder (s : ShopSys) : Prop where
  due : ∀ i op tx q ws, s.Requests postgres i op tx q ws → q.due op.movesItems tx.writes
  apart : ∀ (i j : ℕ) t u, i ≠ j → s.sessions[i]? = some t → s.sessions[j]? = some u →
    ∀ w ∈ t.held, ∀ w' ∈ u.held, Write.conflicts w w' = false

/-- Every reachable state is in order, by the stages of the program and by the locks. -/
theorem inOrder_of_reachable {G : ShopGuard} {db : Db} {n : ℕ}
    (h : ShopReachable G (.start db n) s) : InOrder s where
  due := by
    rintro i op tx q ws ⟨refused, k, r, hi, -⟩
    have hall := h.follows (P := fun op => Stmt.due op.movesItems) (Q := fun _ _ _ => True) rfl
      program_inStages i op _ tx hi
    exact hall.1
  apart := (h.sessions (shop_relyGuarantee G) rfl).apart

/-- Session `i`, which moves the units of several items, holds the row of item
`x` and waits for that of item `y`, which session `j` holds. -/
def ItemWait (s : ShopSys) (i j : ℕ) (x y : Uuid) : Prop :=
  ∃ op tx q ws, s.Requests postgres i op tx q ws ∧ op.movesItems = true ∧ q.movesItem = some y ∧
    (∃ w ∈ tx.writes, IsItem x w) ∧ j ≠ i ∧
    ∃ u, s.sessions[j]? = some u ∧ ∃ w ∈ u.held, IsItem y w

/-- What a session on a cycle is about to do: it moves the units of an item, or
takes an order it does not hold, or writes an order it holds. -/
theorem InOrder.on_cycle (h : InOrder s) {i j k : ℕ} (hij : s.WaitsFor postgres i j)
    (hjk : s.WaitsFor postgres j k) :
    ∃ op tx q ws, s.Requests postgres j op tx q ws ∧ k ≠ j ∧
      (∃ u, s.sessions[k]? = some u ∧ ∃ w ∈ u.held, ∃ w' ∈ ws, Write.conflicts w w' = true) ∧
      ((op.movesItems = true ∧ (∃ y, q.movesItem = some y) ∧ BeforeOrder tx.writes) ∨
        (∃ o, q.takesOrder = some o ∧ BeforeOrder tx.writes) ∨
        ∃ o, q.rewritesOrder = some o ∧ WithOrder o tx.writes) := by
  rcases hjk with ⟨op, tx, q, ws, hreq, hkj, u, hk, w, hw, w', hw', hc⟩
  refine ⟨op, tx, q, ws, hreq, hkj, ⟨u, hk, w, hw, w', hw', hc⟩, ?_⟩
  -- the session that waits for `j` waits for something that `j` holds
  have hholds : tx.writes ≠ [] := by
    rcases hij with ⟨-, -, -, -, -, -, t, hj, v, hv, -⟩
    rcases hreq with ⟨refused, k, r, hj', -⟩
    rw [hj] at hj'
    cases hj'
    exact List.ne_nil_of_mem hv
  have hexec := hreq
  rcases hexec with ⟨refused, k', r, -, he⟩
  rcases h.due j op tx q ws hreq with hreads | houtbox | hnil | ⟨hseveral, hitem, hbefore⟩ |
    ⟨horder, hbefore⟩ | ⟨o, ho, hwith⟩
  · rw [exec_reads hreads he] at hw'
    cases hw'
  · -- nobody waits to store a message
    cases q with
    | insertOutbox row =>
        cases he
        rw [List.mem_singleton.mp hw'] at hc
        simp [postgres, Write.conflicts, Write.locks] at hc
    | _ => cases houtbox
  · exact absurd hnil hholds
  · exact Or.inl ⟨hseveral, Option.isSome_iff_exists.mp hitem, hbefore⟩
  · rcases Option.isSome_iff_exists.mp horder with ⟨o, ho⟩
    exact Or.inr (Or.inl ⟨o, ho, hbefore⟩)
  · exact Or.inr (Or.inr ⟨o, ho, hwith⟩)

/-- A write of an order that waits, waits for a session that writes that order. -/
theorem order_conflict {ws : List Write} {o : Uuid} {w v : Write} (hw : IsOrder o w)
    (hv : v ∈ ws) (hc : v.conflicts w = true)
    (hws : BeforeOrder ws ∨ ∃ o', WithOrder o' ws) : WithOrder o ws ∧ IsOrder o v := by
  have hlight : ¬ ((∃ row, v = .putProcessed row) ∨ ∃ i, IsItem i v) := by
    rintro (⟨row, rfl⟩ | ⟨i, hi⟩)
    · rw [not_conflicts_record hw] at hc
      cases hc
    · rw [not_conflicts_item hi hw] at hc
      cases hc
  rcases hws with hbefore | ⟨o', hwith⟩
  · exact absurd (hbefore v hv) hlight
  · rcases hwith.only v hv with hlight' | ⟨row, rfl⟩ | hord
    · exact absurd hlight' hlight
    · simp [Write.conflicts, Write.locks] at hc
    · have heq : o' = o := (conflicts_orders hord hw).mp hc
      subst heq
      exact ⟨hwith, hord⟩

/-- On a cycle nobody waits to write an order. -/
theorem InOrder.not_rewrites (h : InOrder s) {j k l : ℕ} {op : Op} {tx : ShopTx} {q : Stmt}
    {ws : List Write} {o : Uuid} (hreq : s.Requests postgres j op tx q ws)
    (ho : q.rewritesOrder = some o) (hwith : WithOrder o tx.writes) (hkj : k ≠ j)
    (hjk : ∃ u, s.sessions[k]? = some u ∧ ∃ w ∈ u.held, ∃ w' ∈ ws, Write.conflicts w w' = true)
    (hjk' : s.WaitsFor postgres j k) (hkl : s.WaitsFor postgres k l) : False := by
  rcases hjk with ⟨u, hk, w, hw, w', hw', hc⟩
  rcases hreq with ⟨refused, k', r, hj, he⟩
  have hord := exec_rewritesOrder ho r ws he w' hw'
  -- the session waited for is on the cycle too, so it writes that order or none
  rcases h.on_cycle hjk' hkl with ⟨op₁, tx₁, q₁, ws₁, ⟨refused₁, k₁, r₁, hk₁, -⟩, -, -, hstage⟩
  rw [hk₁, Option.some.injEq] at hk
  subst hk
  have hws : BeforeOrder tx₁.writes ∨ ∃ o', WithOrder o' tx₁.writes := by
    rcases hstage with ⟨-, -, hb⟩ | ⟨o', -, hb⟩ | ⟨o', -, hw⟩
    · exact Or.inl hb
    · exact Or.inl hb
    · exact Or.inr ⟨o', hw⟩
  rcases order_conflict hord hw hc hws with ⟨-, hordw⟩
  rcases hwith.holds with ⟨v, hv, hordv⟩
  have hfree := h.apart k j _ _ hkj hk₁ hj w hw v hv
  rw [(conflicts_orders hordw hordv).mpr rfl] at hfree
  cases hfree

/-- Every wait on a cycle is for the row of an item. -/
theorem InOrder.item_wait (h : InOrder s) {i j k l m : ℕ} (hij : s.WaitsFor postgres i j)
    (hjk : s.WaitsFor postgres j k) (hkl : s.WaitsFor postgres k l)
    (hlm : s.WaitsFor postgres l m) :
    ∃ op tx q ws y, s.Requests postgres j op tx q ws ∧ op.movesItems = true ∧
      q.movesItem = some y ∧ BeforeOrder tx.writes ∧ k ≠ j ∧
      ∃ u, s.sessions[k]? = some u ∧ ∃ w ∈ u.held, ∃ w' ∈ ws, Write.conflicts w w' = true := by
  rcases h.on_cycle hij hjk with ⟨op, tx, q, ws, hreq, hkj, hconf, hstage⟩
  rcases hstage with ⟨hop, ⟨y, hy⟩, hb⟩ | ⟨o, ho, -⟩ | ⟨o, ho, hwith⟩
  · exact ⟨op, tx, q, ws, y, hreq, hop, hy, hb, hkj, hconf⟩
  · -- whoever holds that order is past its items, and on a cycle nobody is
    rcases hconf with ⟨u, hk, w, hw, w', hw', hc⟩
    rcases hreq with ⟨refused, k', r, -, he⟩
    have hord := exec_takesOrder ho r ws he w' hw'
    rcases h.on_cycle hjk hkl with ⟨op₁, tx₁, q₁, ws₁, hreq₁, hlk, hconf₁, hstage₁⟩
    have hsession := hreq₁
    rcases hsession with ⟨refused₁, k₁, r₁, hk₁, -⟩
    rw [hk₁, Option.some.injEq] at hk
    subst hk
    rcases hstage₁ with ⟨-, -, hb⟩ | ⟨o', -, hb⟩ | ⟨o', ho', hwith⟩
    · rcases order_conflict hord hw hc (Or.inl hb) with ⟨-, row, hc', rfl, -⟩
      rcases hb _ hw with ⟨row', heq⟩ | ⟨i', row', hc'', heq, -⟩
      · cases heq
      · cases heq
    · rcases order_conflict hord hw hc (Or.inl hb) with ⟨-, row, hc', rfl, -⟩
      rcases hb _ hw with ⟨row', heq⟩ | ⟨i', row', hc'', heq, -⟩
      · cases heq
      · cases heq
    · exact (h.not_rewrites hreq₁ ho' hwith hlk hconf₁ hkl hlm).elim
  · exact (h.not_rewrites hreq ho hwith hkj hconf hjk hkl).elim

/-- The item whose units a session is about to move. -/
def requestedItem (s : ShopSys) (j : ℕ) : Option Uuid :=
  match s.sessions[j]? with
  | some (.running _ (.stmt q _ _) _) => q.movesItem
  | _ => none

theorem requestedItem_eq {j : ℕ} {op : Op} {tx : ShopTx} {q : Stmt} {ws : List Write}
    (h : s.Requests postgres j op tx q ws) : requestedItem s j = q.movesItem := by
  rcases h with ⟨refused, k, r, hj, -⟩
  simp [requestedItem, hj]

/-- A session on a cycle waits for the row of an item that the next one holds. -/
theorem InOrder.edge (h : InOrder s) {i j k : ℕ}
    (hcycle : Relation.TransGen (s.WaitsFor postgres) i i) (hj : OnCycle (s.WaitsFor postgres) i j)
    (hk : OnCycle (s.WaitsFor postgres) i k) (hjk : s.WaitsFor postgres j k) :
    ∃ op tx q ws y, s.Requests postgres j op tx q ws ∧ op.movesItems = true ∧
      q.movesItem = some y ∧ k ≠ j ∧ ∃ u, s.sessions[k]? = some u ∧ ∃ w ∈ u.held, IsItem y w := by
  rcases hj.pred hcycle with ⟨a, haj, -⟩
  rcases hk.succ hcycle with ⟨l, hkl, hl⟩
  rcases hl.succ hcycle with ⟨m, hlm, hm⟩
  rcases hm.succ hcycle with ⟨n, hmn, -⟩
  rcases h.item_wait haj hjk hkl hlm with ⟨op, tx, q, ws, y, hreq, hop, hy, -, hkj, u, hu, w, hw, w',
    hw', hc⟩
  rcases h.item_wait hjk hkl hlm hmn with ⟨op₁, tx₁, q₁, ws₁, y₁, ⟨refused₁, k₁, r₁, hk₁, -⟩, -, -, hb,
    -⟩
  have hsame := hu
  rw [hk₁, Option.some.injEq] at hsame
  subst hsame
  have hexec := hreq
  rcases hexec with ⟨refused, k', r, -, he⟩
  have hitem := exec_movesItem hy r ws he w' hw'
  refine ⟨op, tx, q, ws, y, hreq, hop, hy, hkj, _, hu, w, hw, ?_⟩
  rcases hb w hw with ⟨row, rfl⟩ | ⟨x, hx⟩
  · exact absurd hc (by rw [not_conflicts_record_item hitem]; simp)
  · rw [← (conflicts_items hx hitem).mp hc]
    exact hx

/-- A cycle of sessions that wait for rows of items, one of which takes an item
that ranks before one it holds. -/
def Inversion (rank : Uuid → ℕ) (s : ShopSys) : Prop :=
  ∃ i j x y, ItemWait s i j x y ∧ rank y < rank x ∧
    Relation.ReflTransGen (fun a b => ∃ x y, ItemWait s a b x y) j i

/-- A cycle has an inversion, since along it the ranks of the items asked for cannot always
rise, and no two sessions hold one item. -/
theorem InOrder.inversion (h : InOrder s) {rank : Uuid → ℕ} (hrank : Function.Injective rank) {i : ℕ}
    (hcycle : Relation.TransGen (s.WaitsFor postgres) i i) : Inversion rank s := by
  -- the one before on the cycle waits for an item that `a` holds
  have hwait : ∀ z a b, s.WaitsFor postgres z a → s.WaitsFor postgres a b →
      OnCycle (s.WaitsFor postgres) i z → OnCycle (s.WaitsFor postgres) i a →
      OnCycle (s.WaitsFor postgres) i b → ∃ x y, requestedItem s z = some x ∧
        requestedItem s a = some y ∧ ItemWait s a b x y := by
    intro z a b hza hab hz ha hb
    rcases h.edge hcycle hz ha hza with ⟨op, tx, q, ws, x, hreq, -, hx, -, t, ht, w, hw, hitem⟩
    rcases h.edge hcycle ha hb hab with ⟨op₁, tx₁, q₁, ws₁, y, hreq₁, hop₁, hy, hba, hheld⟩
    refine ⟨x, y, by rw [requestedItem_eq hreq, hx], by rw [requestedItem_eq hreq₁, hy], ?_⟩
    have hsession := hreq₁
    rcases hsession with ⟨refused, k, r, ha', -⟩
    rw [ha', Option.some.injEq] at ht
    subst ht
    exact ⟨op₁, tx₁, q₁, ws₁, hreq₁, hop₁, hy, ⟨w, hw, hitem⟩, hba, hheld⟩
  have hedge : ∀ a b, OnCycle (s.WaitsFor postgres) i a → OnCycle (s.WaitsFor postgres) i b →
      s.WaitsFor postgres a b → ∃ x y, ItemWait s a b x y := by
    intro a b ha hb hab
    rcases ha.pred hcycle with ⟨z, hza, hz⟩
    rcases hwait z a b hza hab hz ha hb with ⟨x, y, -, -, hxy⟩
    exact ⟨x, y, hxy⟩
  rcases exists_descent_of_cycle hcycle (fun a => rank ((requestedItem s a).getD 0)) with
    ⟨j, k, hjk, hj, hk, hle⟩
  rcases hk.succ hcycle with ⟨l, hkl, hl⟩
  rcases hwait j k l hjk hkl hj hk hl with ⟨x, y, hx, hy, hxy⟩
  rw [hx, hy] at hle
  refine ⟨k, l, x, y, hxy, ?_, OnCycle.path hedge hl hk⟩
  refine lt_of_le_of_ne hle fun heq => ?_
  -- the two rows are held by different sessions
  have hitems : y = x := hrank heq
  rcases hxy with ⟨op, tx, q, ws, ⟨refused, k', r, hk', -⟩, -, -, ⟨w, hw, hwx⟩, hlk, u, hu, w', hw',
    hwy⟩
  have hfree := h.apart l k u _ hlk hu hk' w' hw' w hw
  rw [(conflicts_items hwy hwx).mpr hitems] at hfree
  cases hfree

end Cycles

/-- The units of work that wait within a statement, with the lock of a row taken:
the removal of an item or a service waits for whoever removes a line of it, and
a change of a plate for whoever changes another vehicle's from or to that plate. -/
def Op.waitsWithin : Op → Bool
  | .deleteItem _ | .deleteService _ | .updateVehicle .. => true
  | _ => false

/-- The runs of all other units of work. -/
def lockGuard : ShopGuard where
  launch op := !op.waitsWithin
  stmt _ _ _ _ := true

/-- The service comes to a standstill over the rows of items only. From any
tables, in every interleaving of units of work that take their locks one
statement at a time, a state in which sessions run and none can move has a
cycle of sessions that each handle a message or open an order, hold the row of
one item and wait for that of another; and whatever order the items are ranked
in, one of them takes an item that ranks before one it holds. And from every
state, the sessions that run can be run to their end, or to such a cycle. -/
theorem deadlock_only_over_items {db : Db} {n : ℕ} {s : ShopSys}
    (h : ShopReachable lockGuard (.start db n) s) {rank : Uuid → ℕ}
    (hrank : Function.Injective rank) :
    (s.Stuck postgres program → ¬ s.Idle → Inversion rank s) ∧
    ∃ ls s', (∀ l ∈ ls, ∃ i, l = Label.advance i) ∧
      s.play postgres program lockGuard ls = some s' ∧ (s'.Idle ∨ Inversion rank s') := by
  have hcycle : ∀ {s : ShopSys}, ShopReachable lockGuard (.start db n) s →
      s.Stuck postgres program → ¬ s.Idle → Inversion rank s := by
    intro s h hstuck hbusy
    rcases exists_cycle_of_stuck hstuck hbusy with ⟨i, hi⟩
    exact (inOrder_of_reachable h).inversion hrank hi
  refine ⟨hcycle h, ?_⟩
  rcases exists_run_to_stuck postgres program (G := lockGuard) (fun _ _ _ _ => rfl) s with
    ⟨ls, s', hls, hplay, hstuck⟩
  refine ⟨ls, s', hls, hplay, ?_⟩
  by_cases hidle : s'.Idle
  · exact Or.inl hidle
  · exact Or.inr (hcycle (reachable_of_play h hplay) hstuck hidle)

/-- Two orders that list the same two items in opposite order. -/
def crossedMoves : List (Label Op) :=
  openingMoves ++ Label.session 5 (.createItem "Filter" 20 10) 3 ++
    Label.session 6 (.createServiceOrder
      ⟨Uuid.text 0, Uuid.text 1, [], [⟨Uuid.text 2, 1⟩, ⟨Uuid.text 6, 1⟩]⟩ none) 3 ++
    Label.session 7 (.createServiceOrder
      ⟨Uuid.text 0, Uuid.text 1, [], [⟨Uuid.text 6, 1⟩, ⟨Uuid.text 2, 1⟩]⟩ none) 3

/-- They do come to a standstill. -/
theorem deadlock_of_crossed_orders : ∃ s : ShopSys,
    (ShopSys.start).play postgres program lockGuard crossedMoves = some s ∧
    s.Stuck postgres program ∧ ¬ s.Idle ∧ Inversion id s := by
  have hplay : ((ShopSys.start).play postgres program lockGuard crossedMoves).any (fun s =>
      decide (s.sessions.length = 8) &&
      (List.range 8).all (fun i => (s.step postgres program (.advance i)).isNone) &&
      s.sessions.any fun t => !t.held.isEmpty) = true := by
    decide +kernel
  rw [Option.any_eq_true] at hplay
  rcases hplay with ⟨s, hs, hall⟩
  simp only [Bool.and_eq_true, decide_eq_true_eq, List.all_eq_true, List.mem_range,
    List.any_eq_true, Option.isNone_iff_eq_none] at hall
  rcases hall with ⟨⟨hlength, hsteps⟩, t, ht, hheld⟩
  have hstuck : s.Stuck postgres program := by
    intro i
    by_cases hi : i < 8
    · exact hsteps i hi
    · have hnone : s.sessions[i]? = none := List.getElem?_eq_none (by omega)
      simp [Sys.step, hnone]
  have hbusy : ¬ s.Idle := by
    intro hidle
    rcases List.getElem?_of_mem ht with ⟨i, hi⟩
    cases t with
    | running op p tx => exact hidle i op p tx hi
    | committed op a => cases hheld
    | aborted op e => cases hheld
  exact ⟨s, hs, hstuck, hbusy,
    (deadlock_only_over_items (reachable_of_play .init hs) Function.injective_id).1 hstuck hbusy⟩

end CarRepairShop
