import CarRepairShop.Lib.Relay
import CarRepairShop.OutboxPath

/-! # Publishing the outbox

`PublishPendingMessagesUseCase.ts`, `PrismaOutboxStore.ts` and `OutboxRelay.ts`:
any number of relays publish the outbox of a service that keeps running. A
relay is a cycle of `Lib/Relay.lean` over the rows of the outbox:

* `findPending(batchSize)` is a fetch, with rows of one creation time in any order;
* `sender.send` that resolves is a send, and `markPublished` a mark;
* a send or a mark that rejects, and a process that ends, stop the cycle
  (`runOnce` catches the error, and the next cycle starts from a new fetch).

The messages are appended by the commits of the service, one statement at a time
and in any interleaving with the relays. Two things are taken as given of them:
the ids are a primary key, and the messages of one order and destination are
committed in the order of their creation times.
-/

namespace CarRepairShop

open Lib Txn

/-- The outbox as `PrismaOutboxStore` reads and marks it. A lane is an order
with a destination. -/
def outboxStore : Relay.Outbox OutboxRow (Uuid × MessageDestination) where
  id := OutboxRow.id
  lane row := (row.serviceOrderId, row.destination)
  stamp := OutboxRow.createdAt
  published row := row.publishedAt.isSome
  publish t row := { row with publishedAt := some t }
  publish_id _ _ := rfl
  publish_lane _ _ := rfl
  publish_stamp _ _ := rfl
  published_publish _ _ := rfl

/-- The service with the relays of all its replicas, and the sends that
succeeded. -/
structure Publishing where
  shop : ShopSys
  relays : List (Relay.Cycle OutboxRow) := []
  sends : List OutboxRow := []

/-- A move of the service, or of the relays. -/
inductive PublishingLabel where
  | shop (label : Label Op)
  | relay (event : Relay.Event OutboxRow)

namespace Publishing

/-- The part the relays work on. -/
def outbox (s : Publishing) : Relay.Relays OutboxRow :=
  { table := s.shop.db.outbox, relays := s.relays, sends := s.sends }

/-- The tables with another outbox. -/
def withOutbox (s : Publishing) (r : Relay.Relays OutboxRow) : Publishing where
  shop := { s.shop with db := { s.shop.db with outbox := r.table } }
  relays := r.relays
  sends := r.sends

/-- One move; `none` when it is not possible. Only the service appends messages. -/
def step (s : Publishing) : PublishingLabel → Option Publishing
  | .shop label =>
      match s.shop.step postgres program label with
      | some shop => if outboxStore.Ordered shop.db.outbox then some { s with shop } else none
      | none => none
  | .relay (.commit _) => none
  | .relay event => (s.outbox.step outboxStore event).map s.withOutbox

/-- Makes the moves of a list in order. -/
def play (s : Publishing) : List PublishingLabel → Option Publishing
  | [] => some s
  | l :: ls => (s.step l).bind fun s' => s'.play ls

/-- The service on empty tables, before any operation. -/
def start : Publishing where
  shop := .start

end Publishing

/-- The states that runs from the start reach. -/
inductive PublishingReachable : Publishing → Prop where
  | start : PublishingReachable .start
  | step {s s' : Publishing} (l : PublishingLabel) :
      PublishingReachable s → s.step l = some s' → PublishingReachable s'

theorem publishingReachable_of_play {s s' : Publishing} {ls : List PublishingLabel}
    (hs : PublishingReachable s) (h : s.play ls = some s') : PublishingReachable s' := by
  induction ls generalizing s with
  | nil =>
      cases h
      exact hs
  | cons l ls ih =>
      rw [Publishing.play] at h
      cases hstep : s.step l with
      | none => simp [hstep] at h
      | some s₁ =>
          rw [hstep, Option.bind_some] at h
          exact ih (.step l hs hstep) h

/-! ## What a move of the service does to the outbox -/

/-- The sessions of the service meet their specifications. -/
abbrev ShopSessions (s : ShopSys) : Prop :=
  Sessions postgres .none Rely
    (fun op => Committed Rely (fun tx q v => (Guard.none : ShopGuard).stmt op tx q v = true) op) s

/-- A commit stores messages that are not published yet. -/
theorem OrderStep.stored_unpublished {R : List Write → Db → Db → Prop}
    {G : ShopTx → Stmt → Db → Prop} {op : Op} {tx : ShopTx} {db : Db}
    (h : OrderStep R G op tx db) : ∀ m ∈ stored tx.writes, m.publishedAt = none := by
  intro m hm
  cases h with
  | quiet _ hstored _ _ =>
      rw [hstored] at hm
      cases hm
  | opened input o row message hopen =>
      rw [hopen.stored, List.mem_singleton] at hm
      subst hm
      exact hopen.carries.unpublished
  | updated o data expected r₀ r₁ hcommit _ hstored _ _ =>
      rcases commands_each hstored m hm with ⟨type, hcommand⟩
      exact hcommand.unpublished

/-- A move of the service appends unpublished messages, or none. -/
theorem outbox_of_step {s s' : ShopSys} (hs : ShopSessions s) {label : Label Op}
    (h : s.step postgres program label = some s') :
    ∃ rows, s'.db.outbox = s.db.outbox ++ rows ∧ ∀ r ∈ rows, r.publishedAt = none := by
  have hsame : ∃ rows, s.db.outbox = s.db.outbox ++ rows ∧ ∀ r ∈ rows, r.publishedAt = none :=
    ⟨[], by simp, by simp⟩
  cases move_of_step (G := .none) (s.allowed_none postgres label) h with
  | launch op _ => exact hsame
  | tick d => exact hsame
  | stop i op p tx e hi => exact hsame
  | draw i op k tx hi => exact hsame
  | clock i op k tx hi => exact hsame
  | stmt i op q refused k tx r ws hi _ _ _ => exact hsame
  | commit i op a tx hi =>
      have hcommitted := hs.ensures i op _ tx hi s.db (Rely.refl _ _)
      exact ⟨stored tx.writes, applyAll_outbox s.db tx.writes, hcommitted.step.stored_unpublished⟩

/-- Nobody relies on what the relays change. -/
theorem rely_outbox (ws : List Write) (db : Db) (outbox : List OutboxRow) :
    Rely ws db { db with outbox } where
  orderStays _ r h := ⟨r, h, le_refl _, fun _ => rfl⟩
  orderHeld _ _ _ := rfl
  itemHeld _ _ _ := rfl
  recordStays _ _ h := h
  recordHeld _ _ _ := rfl

/-! ## Runs -/

/-- The sessions meet their specifications, and the relays are orderly. -/
structure PublishingInvariant (s : Publishing) : Prop where
  sessions : ShopSessions s.shop
  orderly : s.outbox.Orderly outboxStore

theorem PublishingInvariant.start : PublishingInvariant .start where
  sessions := by
    constructor
    · intro i op p tx hi
      cases hi
    · intro i j t u _ hi
      cases hi
  orderly := Relay.Relays.Orderly.init

theorem PublishingInvariant.shop {s : Publishing} (h : PublishingInvariant s) {label : Label Op}
    {shop : ShopSys} (hstep : s.shop.step postgres program label = some shop)
    (hord : outboxStore.Ordered shop.db.outbox) : PublishingInvariant { s with shop } where
  sessions :=
    h.sessions.move (shop_relyGuarantee .none) (move_of_step (s.shop.allowed_none postgres label) hstep)
  orderly := by
    rcases outbox_of_step h.sessions hstep with ⟨rows, hrows, hnew⟩
    have hcommit : ({ s.outbox with table := s.outbox.table ++ rows } :
        Relay.Relays OutboxRow).Orderly outboxStore := by
      refine h.orderly.commit ?_ ?_
      · intro r hr
        simp [outboxStore, hnew r hr]
      · rw [Publishing.outbox, ← hrows]
        exact hord
    have heq : ({ s with shop } : Publishing).outbox
        = { s.outbox with table := s.outbox.table ++ rows } := by
      simp only [Publishing.outbox, hrows]
    rw [heq]
    exact hcommit

theorem PublishingInvariant.relay {s : Publishing} (h : PublishingInvariant s)
    {event : Relay.Event OutboxRow} {r : Relay.Relays OutboxRow}
    (hstep : s.outbox.step outboxStore event = some r) : PublishingInvariant (s.withOutbox r) where
  sessions := by
    refine ⟨?_, h.sessions.apart⟩
    intro i op p tx hi
    have hensures := h.sessions.ensures i op p tx hi
    exact hensures.stable (shop_relyGuarantee .none).trans
      (rely_outbox tx.writes s.shop.db r.table)
  orderly := h.orderly.step hstep

/-- Every move keeps the invariant. -/
theorem PublishingInvariant.step {s s' : Publishing} (h : PublishingInvariant s)
    {l : PublishingLabel} (hstep : s.step l = some s') : PublishingInvariant s' := by
  have hrelay : ∀ event, (s.outbox.step outboxStore event).map s.withOutbox = some s' →
      PublishingInvariant s' := by
    intro event hmap
    rcases Option.map_eq_some_iff.mp hmap with ⟨r, hr, rfl⟩
    exact h.relay hr
  cases l with
  | shop label =>
      simp only [Publishing.step] at hstep
      split at hstep
      · next shop hshop =>
        split at hstep
        · next hord =>
          cases hstep
          exact h.shop hshop hord
        · cases hstep
      · cases hstep
  | relay event =>
      cases event with
      | commit rows => cases hstep
      | join => exact hrelay .join hstep
      | fetch i limit sorted => exact hrelay _ hstep
      | sent i => exact hrelay _ hstep
      | marked i t => exact hrelay _ hstep
      | stop i => exact hrelay (.stop i) hstep

theorem reachable_publishing {s : Publishing} (h : PublishingReachable s) :
    PublishingInvariant s := by
  induction h with
  | start => exact .start
  | step l _ hstep ih => exact ih.step hstep

/-! ## Cycles alone -/

@[simp] theorem Publishing.outbox_withOutbox (s : Publishing) (r : Relay.Relays OutboxRow) :
    (s.withOutbox r).outbox = r := rfl

@[simp] theorem Publishing.withOutbox_withOutbox (s : Publishing)
    (r r' : Relay.Relays OutboxRow) : (s.withOutbox r).withOutbox r' = s.withOutbox r' := rfl

/-- Cycles of relay `i` that nothing disturbs, one for each answer of the database. -/
def Publishing.cycles (i batchSize : ℕ) (times : OutboxRow → ℕ) (answers : List (List OutboxRow)) :
    List PublishingLabel :=
  (answers.flatMap (Relay.Cycle.undisturbed i batchSize times)).map .relay

theorem Publishing.play_relay (s : Publishing) {events : List (Relay.Event OutboxRow)}
    (h : ∀ rows, Relay.Event.commit rows ∉ events) :
    s.play (events.map .relay) = (s.outbox.run outboxStore events).map s.withOutbox := by
  induction events generalizing s with
  | nil => rfl
  | cons event events ih =>
      have hstep : s.step (.relay event) = (s.outbox.step outboxStore event).map s.withOutbox := by
        cases event with
        | commit rows => exact absurd List.mem_cons_self (h rows)
        | _ => rfl
      rw [List.map_cons, Publishing.play, hstep, Relay.Relays.run]
      cases s.outbox.step outboxStore event with
      | none => rfl
      | some r =>
          rw [Option.map_some, Option.bind_some, Option.bind_some,
            ih _ fun rows hin => h rows (List.mem_cons_of_mem _ hin)]
          rfl

theorem Publishing.play_cycles (s : Publishing) (i batchSize : ℕ) (times : OutboxRow → ℕ)
    (answers : List (List OutboxRow)) :
    s.play (Publishing.cycles i batchSize times answers) = (s.outbox.run outboxStore
      (answers.flatMap (Relay.Cycle.undisturbed i batchSize times))).map s.withOutbox := by
  apply Publishing.play_relay
  intro rows hin
  rcases List.mem_flatMap.mp hin with ⟨sorted, -, hin⟩
  rcases List.mem_cons.mp hin with heq | hin
  · cases heq
  · rcases List.mem_flatMap.mp hin with ⟨r, -, hin⟩
    simp at hin

/-! ## The relays keep the order -/

/-- The messages that are not published yet. -/
def Db.backlog (db : Db) : List OutboxRow := db.outbox.filter fun r => r.publishedAt.isNone

/-- What `PublishPendingMessagesUseCase` promises of the messages and their sends. -/
structure Publishing.KeepsOrder (s : Publishing) : Prop where
  /-- A message is published only once it was sent. -/
  sentFirst : ∀ r ∈ s.shop.db.outbox, r.publishedAt ≠ none → ∃ m ∈ s.sends, m.id = r.id
  /-- The first send of a message comes after that of each earlier message of its order and
  destination. -/
  inOrder : ∀ e ∈ s.shop.db.outbox, ∀ r ∈ s.shop.db.outbox, e.serviceOrderId = r.serviceOrderId →
    e.destination = r.destination → e.createdAt < r.createdAt →
      ∀ j, outboxStore.firstSend s.sends r = some j →
        ∃ i < j, outboxStore.firstSend s.sends e = some i
  /-- Cycles without failures send the oldest messages, each once. -/
  oldest : ∀ i batchSize times answers s', s.relays[i]? = some (.sending []) → 1 ≤ batchSize →
    s.play (Publishing.cycles i batchSize times answers) = some s' →
      ∃ sent, s'.sends = s.sends ++ sent ∧
        sent.length = min (answers.length * batchSize) s.shop.db.backlog.length ∧
        (sent.map OutboxRow.id).Nodup ∧ (sent ++ s'.shop.db.backlog).Perm s.shop.db.backlog ∧
        ∀ r ∈ sent, ∀ r' ∈ s'.shop.db.backlog, r.createdAt ≤ r'.createdAt
  /-- A relay between two cycles can go through any number of them. -/
  runs : ∀ i batchSize times k, s.relays[i]? = some (.sending []) → 1 ≤ batchSize →
    ∃ answers : List (List OutboxRow), answers.length = k ∧
      ∃ s', s.play (Publishing.cycles i batchSize times answers) = some s'

theorem pending_backlog (db : Db) : outboxStore.pending db.outbox = db.backlog := by
  unfold Relay.Outbox.pending Db.backlog
  apply List.filter_congr
  intro r _
  simp [outboxStore]

/-- Whatever fails and however the relays and the service interleave, no
message is marked before it was sent, and none overtakes another of its order
and destination. -/
theorem relays_keep_order {s : Publishing} (h : PublishingReachable s) : s.KeepsOrder := by
  have hinv := reachable_publishing h
  refine ⟨?_, ?_, ?_, ?_⟩
  · intro r hr hpub
    have hsent := hinv.orderly.published r hr (by
      simpa [outboxStore, Option.isSome_iff_ne_none] using hpub)
    exact List.mem_map.mp hsent
  · intro e he r hr horder hdest hlt j hj
    exact hinv.orderly.firstSend he hr ⟨Prod.ext horder hdest, hlt⟩ hj
  · intro i batchSize times answers s' hi hbatch hplay
    rw [Publishing.play_cycles] at hplay
    rcases Option.map_eq_some_iff.mp hplay with ⟨r, hrun, rfl⟩
    rcases Relay.cycles_oldest times hbatch answers hinv.orderly.ordered hi hrun with ⟨sent, hsent⟩
    have hbefore : outboxStore.pending s.outbox.table = s.shop.db.backlog := pending_backlog _
    have hafter : outboxStore.pending r.table = (s.withOutbox r).shop.db.backlog :=
      pending_backlog (s.withOutbox r).shop.db
    have hlength := hsent.length
    have hpart := hsent.partition
    have hold := hsent.oldest
    rw [hbefore] at hlength hpart
    rw [hafter] at hpart hold
    exact ⟨sent, hsent.sends, hlength, hsent.once, hpart, hold⟩
  · intro i batchSize times k hi hbatch
    rcases Relay.cycles_run times hbatch k hinv.orderly.ordered hi with ⟨answers, r, hk, hrun⟩
    refine ⟨answers, hk, s.withOutbox r, ?_⟩
    rw [Publishing.play_cycles]
    exact Option.map_eq_some_iff.mpr ⟨r, hrun, rfl⟩

/-- The command of the first order. -/
def firstCommand : OutboxRow :=
  { id := 5, destination := .executionCommands, type := .enqueueDiagnosis, serviceOrderId := 4
    payload := .empty, traceparent := none, createdAt := 0, publishedAt := none }

/-- Two relays fetch it. The first one sends it and dies; the second one sends
it again, from its old snapshot, and marks it. -/
def resentMoves : List PublishingLabel :=
  openingMoves.map .shop ++
    [.relay .join, .relay .join, .relay (.fetch 0 10 [firstCommand]),
      .relay (.fetch 1 10 [firstCommand]), .relay (.sent 0), .relay (.stop 0), .relay (.sent 1),
      .relay (.marked 1 7)]

theorem resent_command_keeps_order : ∃ s, Publishing.start.play resentMoves = some s ∧
    s.sends = [firstCommand, firstCommand] ∧ s.shop.db.backlog = [] ∧ s.KeepsOrder := by
  have hplay : ∃ s ∈ Publishing.start.play resentMoves,
      s.sends = [firstCommand, firstCommand] ∧ s.shop.db.backlog = [] := by
    decide +kernel
  rcases hplay with ⟨s, hs, hsends, hbacklog⟩
  exact ⟨s, hs, hsends, hbacklog, relays_keep_order (publishingReachable_of_play .start hs)⟩

end CarRepairShop
