import Mathlib.Data.Multiset.AddSub
import CarRepairShop.Lib.Relational
import CarRepairShop.DueReplies

/-! # What a message does to the tables

Two units of work that run at different moments draw other ids and read other
times. `Db.picture` is what the tables show without them, and a `Deed` is what
handling one message does to the picture: it writes the row of its own order,
moves counters of items, records its own id and stores commands. Deeds act on
pictures, and those of different orders and messages commute
(`Deed.act_comm`), also when they move units of the same items.

`Synced` is the relational specification of this: the same unit of work, begun
in two states that are `Alike` in what its own order and message can see of
them, ends both times the same way and with the same deed.
-/

namespace CarRepairShop

open Lib Txn Prog

/-! ## Without ids and times -/

/-- The change without its time. -/
def StatusChange.timeless (change : StatusChange) : StatusChange := { change with changedAt := 0 }

/-- The columns of an order without the times that messages set; whether they
are set is kept. -/
def OrderColumns.timeless (row : OrderColumns) : OrderColumns :=
  { row with
    startedAt := row.startedAt.map fun _ => 0
    finishedAt := row.finishedAt.map fun _ => 0 }

def OrderRow.timeless (row : OrderRow) : OrderRow :=
  { row with
    toOrderColumns := row.toOrderColumns.timeless
    history := row.history.map StatusChange.timeless }

def OrderScalar.timeless (data : OrderScalar) : OrderScalar :=
  { data with
    startedAt := data.startedAt.map fun _ => 0
    finishedAt := data.finishedAt.map fun _ => 0 }

def ServiceOrder.timeless (order : ServiceOrder) : ServiceOrder :=
  { order with
    startedAt := order.startedAt.map fun _ => 0
    finishedAt := order.finishedAt.map fun _ => 0 }

def ProcessedRow.timeless (row : ProcessedRow) : ProcessedRow := { row with processedAt := 0 }

/-- A stored message without its id and its time. -/
def OutboxRow.timeless (row : OutboxRow) : OutboxRow := { row with id := 0, createdAt := 0 }

theorem OrderScalar.timeless_apply (data : OrderScalar) (row : OrderRow) :
    (data.apply row).timeless = data.timeless.apply row.timeless := by
  simp [OrderScalar.apply, OrderScalar.timeless, OrderRow.timeless, OrderColumns.timeless,
    Option.map_or]

theorem OrderColumns.timeless_toEntity (row : OrderColumns) (services : List Uuid)
    (items : List ItemLine) :
    (row.toEntity services items).timeless = row.timeless.toEntity services items := rfl

namespace OrderRow

variable {row row' : OrderRow}

/-- What does not depend on the times is the same of rows that differ only in times. -/
theorem eq_of_timeless {α : Type} (f : OrderRow → α) (hf : ∀ r, f r.timeless = f r)
    (h : row.timeless = row'.timeless) : f row = f row' := by
  rw [← hf row, h, hf]

theorem status_of_timeless (h : row.timeless = row'.timeless) : row.status = row'.status :=
  eq_of_timeless (fun r => r.status) (fun _ => rfl) h

theorem version_of_timeless (h : row.timeless = row'.timeless) : row.version = row'.version :=
  eq_of_timeless (fun r => r.version) (fun _ => rfl) h

theorem budgetTotal_of_timeless (h : row.timeless = row'.timeless) :
    row.budgetTotal = row'.budgetTotal :=
  eq_of_timeless (fun r => r.budgetTotal) (fun _ => rfl) h

theorem services_of_timeless (h : row.timeless = row'.timeless) : row.services = row'.services :=
  eq_of_timeless OrderRow.services (fun _ => rfl) h

theorem items_of_timeless (h : row.timeless = row'.timeless) : row.items = row'.items :=
  eq_of_timeless OrderRow.items (fun _ => rfl) h

/-- The checks do not depend on the times. -/
theorem checks_of_timeless (h : row.timeless = row'.timeless) (hc : row.Checks) : row'.Checks :=
  hc.congr (services_of_timeless h).symm (items_of_timeless h).symm
    (budgetTotal_of_timeless h).symm (version_of_timeless h).symm

theorem violation_of_timeless (h : row.timeless = row'.timeless) :
    row.violation = row'.violation := by
  unfold OrderRow.violation
  rw [services_of_timeless h, items_of_timeless h, budgetTotal_of_timeless h]

end OrderRow

/-! ## Pictures and deeds -/

/-- The tables without drawn ids and times; the outbox is not ordered. -/
@[ext] structure Picture where
  customers : Uuid → Option CustomerRow
  vehicles : Uuid → Option VehicleRow
  services : Uuid → Option ServiceRow
  items : Uuid → Option ItemRow
  orders : Uuid → Option OrderRow
  processed : Uuid → Option ProcessedRow
  outbox : Multiset OutboxRow

def Db.picture (db : Db) : Picture where
  customers := db.customers.find?
  vehicles := db.vehicles.find?
  services := db.services.find?
  items := db.items.find?
  orders := fun o => (db.orders.find? o).map OrderRow.timeless
  processed := fun m => (db.processed.find? m).map ProcessedRow.timeless
  outbox := ↑(db.outbox.map OutboxRow.timeless)

/-- What is done to the picture: rows of orders and records that are written,
units by which the counters of items move, messages that are stored. -/
structure Deed where
  orders : Uuid → Option OrderRow := fun _ => none
  processed : Uuid → Option ProcessedRow := fun _ => none
  reserved : Uuid → ℤ := fun _ => 0
  stocked : Uuid → ℤ := fun _ => 0
  sent : Multiset OutboxRow := 0

namespace Deed

def act (d : Deed) (p : Picture) : Picture :=
  { p with
    items := fun i => (p.items i).map (·.shift (d.reserved i) (d.stocked i))
    orders := fun o => (d.orders o).or (p.orders o)
    processed := fun m => (d.processed m).or (p.processed m)
    outbox := p.outbox + d.sent }

/-- One deed after the other. -/
def andThen (d e : Deed) : Deed where
  orders := fun o => (e.orders o).or (d.orders o)
  processed := fun m => (e.processed m).or (d.processed m)
  reserved := fun i => d.reserved i + e.reserved i
  stocked := fun i => d.stocked i + e.stocked i
  sent := d.sent + e.sent

theorem act_andThen (d e : Deed) (p : Picture) : (d.andThen e).act p = e.act (d.act p) := by
  simp only [act, andThen, Picture.mk.injEq, true_and]
  refine ⟨?_, ?_, ?_, ?_⟩
  · funext i
    simp [Option.map_map, Function.comp_def, ItemRow.shift_shift]
  · funext o
    rw [Option.or_assoc]
  · funext m
    rw [Option.or_assoc]
  · rw [Multiset.add_assoc]

/-- A deed that does nothing. -/
theorem act_idle (p : Picture) : Deed.act {} p = p := by
  simp [act]

/-- The deed writes at most the order and the record it is about. -/
structure About (d : Deed) (o m : Option Uuid) : Prop where
  orders : ∀ x, o ≠ some x → d.orders x = none
  processed : ∀ x, m ≠ some x → d.processed x = none

theorem About.idle (o m : Option Uuid) : About {} o m where
  orders := fun _ _ => rfl
  processed := fun _ _ => rfl

theorem About.andThen {d e : Deed} {o m : Option Uuid} (hd : d.About o m) (he : e.About o m) :
    (d.andThen e).About o m where
  orders := by
    intro x hx
    simp [Deed.andThen, hd.orders x hx, he.orders x hx]
  processed := by
    intro x hx
    simp [Deed.andThen, hd.processed x hx, he.processed x hx]

/-- Of two writers without a common key, at most one writes. -/
theorem or_comm_of_apart {α : Type} {f g : Uuid → Option α} {k l : Option Uuid}
    (hf : ∀ x, k ≠ some x → f x = none) (hg : ∀ x, l ≠ some x → g x = none)
    (hapart : ∀ x, k = some x → l ≠ some x) (x : Uuid) (y : Option α) :
    (f x).or ((g x).or y) = (g x).or ((f x).or y) := by
  by_cases hk : k = some x
  · rw [hg x (hapart x hk)]
    rfl
  · rw [hf x hk]
    rfl

/-- Deeds of different orders and different messages commute. -/
theorem act_comm {d e : Deed} {o o' m m' : Option Uuid} (hd : d.About o m) (he : e.About o' m')
    (horders : ∀ x, o = some x → o' ≠ some x) (hmessages : ∀ x, m = some x → m' ≠ some x) :
    Function.Commute d.act e.act := by
  intro p
  simp only [act, Picture.mk.injEq, true_and]
  refine ⟨?_, ?_, ?_, ?_⟩
  · -- counters move by sums, in whatever order
    funext i
    simp [Option.map_map, Function.comp_def, ItemRow.shift_shift, add_comm]
  · funext x
    exact or_comm_of_apart hd.orders he.orders horders x _
  · funext x
    exact or_comm_of_apart hd.processed he.processed hmessages x _
  · rw [Multiset.add_assoc, Multiset.add_assoc, Multiset.add_comm d.sent]

end Deed

/-! ## Two states that look alike -/

/-- What the name and the price of an item tell, without its counters. -/
def ItemRow.label (row : ItemRow) : ItemRow :=
  { row with stockQuantity := 0, reservedQuantity := 0 }

/-- Two pictures that a message `m` about order `o` cannot tell apart, except
by the counters of the items. -/
structure Alike (o m : Option Uuid) (p p' : Picture) : Prop where
  customers : p.customers = p'.customers
  services : p.services = p'.services
  labels : ∀ i, (p.items i).map ItemRow.label = (p'.items i).map ItemRow.label
  order : ∀ x, o = some x → p.orders x = p'.orders x
  record : ∀ x, m = some x → p.processed x = p'.processed x

theorem Alike.refl (o m : Option Uuid) (p : Picture) : Alike o m p p :=
  ⟨rfl, rfl, fun _ => rfl, fun _ _ => rfl, fun _ _ => rfl⟩

/-- No deed moves the name or the price of an item. -/
theorem Deed.act_labels (d : Deed) (p : Picture) (i : Uuid) :
    ((d.act p).items i).map ItemRow.label = (p.items i).map ItemRow.label := by
  simp only [Deed.act, Option.map_map, Function.comp_def]
  rfl

/-- A deed about another order and another message cannot be told. -/
theorem Deed.About.alike {d : Deed} {o o' m m' : Option Uuid} (hd : d.About o' m')
    (horders : ∀ x, o = some x → o' ≠ some x) (hmessages : ∀ x, m = some x → m' ≠ some x)
    (p : Picture) : Alike o m p (d.act p) where
  customers := rfl
  services := rfl
  labels := fun i => (d.act_labels p i).symm
  order := by
    intro x hx
    simp [Deed.act, hd.orders x (horders x hx)]
  record := by
    intro x hx
    simp [Deed.act, hd.processed x (hmessages x hx)]

/-- The same deed leaves alike what was alike. -/
theorem Alike.act {o m : Option Uuid} {p p' : Picture} (h : Alike o m p p') (d : Deed) :
    Alike o m (d.act p) (d.act p') where
  customers := h.customers
  services := h.services
  labels := by
    intro i
    rw [d.act_labels, d.act_labels, h.labels i]
  order := by
    intro x hx
    simp only [Deed.act, h.order x hx]
  record := by
    intro x hx
    simp only [Deed.act, h.record x hx]

/-! ## Deeds of units of work -/

/-- The tables went from `v` to `u` by the deed `d` about order `o` and message
`m`; the rows of the other orders are the same ones, with their times. -/
structure Does (o m : Option Uuid) (d : Deed) (v u : Db) : Prop where
  about : d.About o m
  picture : u.picture = d.act v.picture
  others : ∀ x, o ≠ some x → u.orders.find? x = v.orders.find? x

section Does

variable {o m : Option Uuid} {v u w : Db} {d e : Deed}

theorem Does.idle (o m : Option Uuid) (v : Db) : Does o m {} v v where
  about := .idle o m
  picture := (Deed.act_idle v.picture).symm
  others := fun _ _ => rfl

theorem Does.trans (h : Does o m d v u) (h' : Does o m e u w) : Does o m (d.andThen e) v w where
  about := h.about.andThen h'.about
  picture := by rw [h'.picture, h.picture, Deed.act_andThen]
  others := by
    intro x hx
    rw [h'.others x hx, h.others x hx]

/-- Writing the own order. -/
theorem does_putOrder {key : Uuid} {row : OrderRow} (hid : row.id = key) (hc : row.Checks) :
    Does (some key) m { orders := fun x => if x = key then some row.timeless else none } v
      (postgres.applyAll v [.putOrder row hc]) where
  about := by
    constructor
    · intro x hx
      have hne : x ≠ key := fun heq => hx (congrArg some heq.symm)
      exact if_neg hne
    · intro x _
      rfl
  picture := by
    ext1 <;> try simp [Deed.act, Db.picture, postgres, Db.write]
    · funext x
      by_cases hx : x = key
      · simp [hx, hid]
      -- another order is found as before
      · have hne : row.id ≠ x := fun heq => hx (heq.symm.trans hid)
        simp [hx, hne]
  others := by
    intro x hx
    have hne : row.id ≠ x := fun heq => hx (congrArg some (hid.symm.trans heq))
    rw [applyAll_orders]
    simp [Write.order?, hne]

/-- Recording the own message. -/
theorem does_putProcessed {key : Uuid} {row : ProcessedRow} (hid : row.messageId = key) :
    Does o (some key) { processed := fun x => if x = key then some row.timeless else none } v
      (postgres.applyAll v [.putProcessed row]) where
  about := by
    constructor
    · intro x _
      rfl
    · intro x hx
      have hne : x ≠ key := fun heq => hx (congrArg some heq.symm)
      exact if_neg hne
  picture := by
    ext1 <;> try simp [Deed.act, Db.picture, postgres, Db.write]
    · funext x
      by_cases hx : x = key
      · simp [hx, hid]
      · have hne : row.messageId ≠ x := fun heq => hx (heq.symm.trans hid)
        simp [hx, hne]
  others := fun _ _ => rfl

/-- Storing a message. -/
theorem does_addOutbox (row : OutboxRow) :
    Does o m { sent := {row.timeless} } v (postgres.applyAll v [.addOutbox row]) where
  about := ⟨fun _ _ => rfl, fun _ _ => rfl⟩
  picture := by
    ext1 <;> try simp [Deed.act, Db.picture, postgres, Db.write]
    rw [← Multiset.coe_add, Multiset.coe_singleton]
  others := fun _ _ => rfl

/-- Moving the counters of an item. -/
theorem does_moved {i : Uuid} {dr ds : ℤ} (h : MovedOne v i dr ds u) :
    Does o m { reserved := fun j => if j = i then dr else 0
               stocked := fun j => if j = i then ds else 0 } v u where
  about := ⟨fun _ _ => rfl, fun _ _ => rfl⟩
  picture := by
    -- an item that did not move is shifted by zero
    have hitems : ∀ j, u.items.find? j = (v.items.find? j).map fun row =>
        row.shift (if j = i then dr else 0) (if j = i then ds else 0) := by
      intro j
      rw [h.items j]
      by_cases hj : j = i <;> simp [hj]
    rw [h.rest]
    ext1 <;> try simp [Deed.act, Db.picture]
    · funext j
      exact hitems j
  others := by
    intro x _
    rw [h.rest]

end Does

/-! ## Two runs of one message -/

/-- Two runs did the same deed: from `v` to `u` and from `v'` to `u'`. -/
def Together (o m : Option Uuid) (v v' u u' : Db) : Prop :=
  ∃ d, Does o m d v u ∧ Does o m d v' u'

/-- Two units of work on `v` and on `v'` end the same way: with results in `R`
and the same deed, or with one error. -/
def Synced {α α' : Type} (o m : Option Uuid) (R : α → α' → Prop) (p : Work α) (p' : Work α')
    (v v' : Db) : Prop :=
  p.Relates postgres (fun a u a' u' => R a a' ∧ Together o m v v' u u') p' v v'

/-- Two answers to a statement, with what its writes do. -/
inductive InStep {α α' : Type} (o m : Option Uuid) (R : α → α' → Prop) (v v' : Db) :
    Except Failure (α × List Write) → Except Failure (α' × List Write) → Prop where
  | answered {a : α} {a' : α'} {ws ws' : List Write} (related : R a a')
      (together : Together o m v v' (postgres.applyAll v ws) (postgres.applyAll v' ws')) :
      InStep o m R v v' (.ok (a, ws)) (.ok (a', ws'))
  | refused (failure : Failure) : InStep o m R v v' (.error failure) (.error failure)

section Synced

variable {α α' β β' γ : Type} {o m : Option Uuid} {R R' : α → α' → Prop} {S : β → β' → Prop}
variable {p : Work α} {p' : Work α'} {v v' u u' : Db}

theorem Together.refl (o m : Option Uuid) (v v' : Db) : Together o m v v' v v' :=
  ⟨{}, .idle o m v, .idle o m v'⟩

theorem Together.trans {w w' : Db} (h : Together o m v v' u u') (h' : Together o m u u' w w') :
    Together o m v v' w w' := by
  rcases h with ⟨d, hd, hd'⟩
  rcases h' with ⟨e, he, he'⟩
  exact ⟨d.andThen e, hd.trans he, hd'.trans he'⟩

theorem Together.alike (h : Together o m v v' u u') (halike : Alike o m v.picture v'.picture) :
    Alike o m u.picture u'.picture := by
  rcases h with ⟨d, hd, hd'⟩
  rw [hd.picture, hd'.picture]
  exact halike.act d

theorem Synced.pure {a : α} {a' : α'} (h : R a a') : Synced o m R (.pure a) (.pure a') v v' :=
  Relates.pure ⟨h, .refl o m v v'⟩

/-- The sequencing rule: the second parts begin in states that are alike again. -/
theorem Synced.seq {f : α → Work β} {f' : α' → Work β'} (hp : Synced o m R p p' v v')
    (halike : Alike o m v.picture v'.picture)
    (hf : ∀ a a' u u', R a a' → Together o m v v' u u' → Alike o m u.picture u'.picture →
      Synced o m S (f a) (f' a') u u') : Synced o m S (p >>= f) (p' >>= f') v v' := by
  refine Relates.seq hp ?_
  intro a u a' u' ⟨hR, htogether⟩
  refine Relates.mono (hf a a' u u' hR htogether (htogether.alike halike)) ?_
  -- the two deeds of either side make one
  intro b w b' w' ⟨hS, hrest⟩
  exact ⟨hS, htogether.trans hrest⟩

/-- The rule for two statements, each followed by the rest of its unit of work. -/
theorem synced_sql {s s' : Stmt} {T : s.Resp → s'.Resp → Prop} {k : s.Resp → Work α}
    {k' : s'.Resp → Work α'} (halike : Alike o m v.picture v'.picture)
    (h : InStep o m T v v' (exec s v) (exec s' v'))
    (hk : ∀ r r' u u', T r r' → Together o m v v' u u' → Alike o m u.picture u'.picture →
      Synced o m R (k r) (k' r') u u') : Synced o m R (sql s >>= k) (sql s' >>= k') v v' := by
  change Relates postgres _ (.stmt s id k) (.stmt s' id k') v v'
  generalize hx : exec s v = x at h
  generalize hx' : exec s' v' = x' at h
  cases h with
  | answered hT htogether =>
      refine .answered hx hx' (Relates.mono (hk _ _ _ _ hT htogether (htogether.alike halike)) ?_)
      intro a w a' w' ⟨hR, hrest⟩
      exact ⟨hR, htogether.trans hrest⟩
  | refused failure => exact .refused hx hx' rfl

theorem synced_ofExcept (x : Except Failure α) : Synced o m Eq (ofExcept x) (ofExcept x) v v' := by
  cases x with
  | error failure => exact .throw failure v v'
  | ok a => exact .pure rfl

/-- The loop rule: the rounds begin in states that are alike. -/
theorem Synced.each {f : γ → Work β} {f' : γ → Work β'}
    (hf : ∀ x u u', Alike o m u.picture u'.picture → Synced o m S (f x) (f' x) u u') (xs : List γ)
    (halike : Alike o m v.picture v'.picture) :
    Synced o m (List.Forall₂ S) (each f xs) (each f' xs) v v' := by
  refine Relates.each (I := Together o m v v') ?_ xs (.refl o m v v')
  intro x u u' hu
  refine Relates.mono (hf x u u' (hu.alike halike)) ?_
  intro y w y' w' ⟨hS, hrest⟩
  exact ⟨hS, hu.trans hrest⟩

end Synced

/-! ## Statements in step -/

section Statements

variable {α α' : Type} {R : α → α' → Prop} {o m : Option Uuid} {key : Uuid} {v v' : Db}

/-- Two reads. -/
theorem inStep_read {a : α} {a' : α'} (h : R a a') :
    InStep o m R v v' (.ok (a, [])) (.ok (a', [])) :=
  .answered h (.refl o m v v')

/-- The own order is there in both states, or in neither. -/
theorem Alike.own (h : Alike (some key) m v.picture v'.picture) :
    (v.orders.find? key = none ∧ v'.orders.find? key = none) ∨
      ∃ row row', v.orders.find? key = some row ∧ v'.orders.find? key = some row' ∧
        row.timeless = row'.timeless := by
  have hsame : (v.orders.find? key).map OrderRow.timeless =
      (v'.orders.find? key).map OrderRow.timeless := h.order key rfl
  cases hrow : v.orders.find? key with
  | none =>
      rw [hrow, Option.map_none] at hsame
      exact .inl ⟨rfl, Option.map_eq_none_iff.1 hsame.symm⟩
  | some row =>
      rw [hrow, Option.map_some] at hsame
      rcases Option.map_eq_some_iff.1 hsame.symm with ⟨row', hrow', heq⟩
      exact .inr ⟨row, row', rfl, hrow', heq.symm⟩

/-- Storing two rows of the own order that differ in times. -/
theorem storeOrder_inStep {row row' : OrderRow} {a : α} {a' : α'} (hid : row.id = key)
    (ht : row.timeless = row'.timeless) (hR : R a a') :
    InStep (some key) m R v v' ((storeOrder row).map (a, ·)) ((storeOrder row').map (a', ·)) := by
  have hid' : row'.id = key := by
    rw [← hid]
    exact (OrderRow.eq_of_timeless (fun r => r.id) (fun _ => rfl) ht).symm
  by_cases hc : row.Checks
  · have hc' : row'.Checks := OrderRow.checks_of_timeless ht hc
    rw [storeOrder_checked hc, storeOrder_checked hc']
    refine .answered hR ⟨_, does_putOrder hid hc, ?_⟩
    rw [ht]
    exact does_putOrder hid' hc'
  · have hc' : ¬ row'.Checks := fun h => hc (OrderRow.checks_of_timeless ht.symm h)
    simp only [storeOrder, hc, hc', dif_neg, not_false_eq_true, Except.map]
    rw [OrderRow.violation_of_timeless ht]
    exact .refused _

/-- Changing the own order, to rows that differ in times again. -/
theorem changeOrder_inStep {missing : Except Failure (α × List Write)}
    {missing' : Except Failure (α' × List Write)} {f : OrderRow → Except Failure (α × OrderRow)}
    {f' : OrderRow → Except Failure (α' × OrderRow)}
    (h : Alike (some key) m v.picture v'.picture)
    (hmissing : InStep (some key) m R v v' missing missing')
    (hf : ∀ row row', row.id = key → row.timeless = row'.timeless → ∃ a a' next next',
      f row = .ok (a, next) ∧ f' row' = .ok (a', next') ∧ R a a' ∧ next.id = key ∧
        next.timeless = next'.timeless) :
    InStep (some key) m R v v' (changeOrder v key missing f) (changeOrder v' key missing' f') := by
  unfold changeOrder
  rcases h.own with ⟨hrow, hrow'⟩ | ⟨row, row', hrow, hrow', ht⟩
  · rw [hrow, hrow']
    exact hmissing
  · rcases hf row row' (order_id hrow) ht with ⟨a, a', next, next', hnext, hnext', hR, hid, ht'⟩
    rw [hrow, hrow']
    simp only [hnext, hnext', Bind.bind, Except.bind]
    exact storeOrder_inStep hid ht' hR

theorem claimVersion_inStep (h : Alike (some key) m v.picture v'.picture) (expected : Option ℕ) :
    InStep (some key) m Eq v v' (exec (.claimVersion key expected) v)
      (exec (.claimVersion key expected) v') := by
  rcases h.own with ⟨hrow, hrow'⟩ | ⟨row, row', hrow, hrow', ht⟩
  · simp only [exec, hrow, hrow']
    exact inStep_read rfl
  · simp only [exec, hrow, hrow', ← OrderRow.version_of_timeless ht]
    split
    · have hid : row.id = key := order_id hrow
      refine storeOrder_inStep hid ?_ rfl
      exact congrArg (fun r : OrderRow => { r with version := row.version + 1 }) ht
    · exact inStep_read rfl

theorem countOrders_inStep (h : Alike (some key) m v.picture v'.picture) :
    InStep (some key) m Eq v v' (exec (.countOrders key) v) (exec (.countOrders key) v') := by
  rcases h.own with ⟨hrow, hrow'⟩ | ⟨row, row', hrow, hrow', -⟩
  · simp only [exec, hrow, hrow']
    exact inStep_read rfl
  · simp only [exec, hrow, hrow']
    exact inStep_read rfl

theorem findStatusOrThrow_inStep (h : Alike (some key) m v.picture v'.picture) :
    InStep (some key) m Eq v v' (exec (.findStatusOrThrow key) v)
      (exec (.findStatusOrThrow key) v') := by
  rcases h.own with ⟨hrow, hrow'⟩ | ⟨row, row', hrow, hrow', ht⟩
  · simp only [exec, hrow, hrow']
    exact .refused _
  · simp only [exec, hrow, hrow']
    exact inStep_read (OrderRow.status_of_timeless ht)

theorem findServiceLines_inStep (h : Alike (some key) m v.picture v'.picture) {id id' : Uuid}
    (hid : id = key) (hid' : id' = key) :
    InStep (some key) m Eq v v' (exec (.findServiceLines id) v)
      (exec (.findServiceLines id') v') := by
  subst hid hid'
  rcases h.own with ⟨hrow, hrow'⟩ | ⟨row, row', hrow, hrow', ht⟩
  · simp only [exec, hrow, hrow']
    exact inStep_read rfl
  · simp only [exec, hrow, hrow']
    exact inStep_read (OrderRow.services_of_timeless ht)

theorem findItemLines_inStep (h : Alike (some key) m v.picture v'.picture) {id id' : Uuid}
    (hid : id = key) (hid' : id' = key) :
    InStep (some key) m Eq v v' (exec (.findItemLines id) v) (exec (.findItemLines id') v') := by
  subst hid hid'
  rcases h.own with ⟨hrow, hrow'⟩ | ⟨row, row', hrow, hrow', ht⟩
  · simp only [exec, hrow, hrow']
    exact inStep_read rfl
  · simp only [exec, hrow, hrow']
    exact inStep_read (OrderRow.items_of_timeless ht)

/-- Columns of one order that differ in times. -/
def SameColumns (key : Uuid) (columns columns' : OrderColumns) : Prop :=
  columns.id = key ∧ columns.timeless = columns'.timeless

theorem updateOrder_inStep (h : Alike (some key) m v.picture v'.picture) {data data' : OrderScalar}
    (hdata : data.timeless = data'.timeless) :
    InStep (some key) m (SameColumns key) v v' (exec (.updateOrder key data) v)
      (exec (.updateOrder key data') v') := by
  refine changeOrder_inStep h (.refused _) ?_
  intro row row' hid ht
  have hafter : (data.apply row).timeless = (data'.apply row').timeless := by
    rw [OrderScalar.timeless_apply, OrderScalar.timeless_apply, hdata, ht]
  exact ⟨_, _, _, _, rfl, rfl, ⟨hid, congrArg OrderRow.toOrderColumns hafter⟩, hid, hafter⟩

theorem insertHistory_inStep (h : Alike (some key) m v.picture v'.picture)
    {change change' : StatusChange} (hchange : change.timeless = change'.timeless) :
    InStep (some key) m (fun _ _ => True) v v' (exec (.insertHistory key change) v)
      (exec (.insertHistory key change') v') := by
  refine changeOrder_inStep h (.refused _) ?_
  intro row row' hid ht
  refine ⟨_, _, _, _, rfl, rfl, trivial, hid, ?_⟩
  have hcolumns : row.toOrderColumns.timeless = row'.toOrderColumns.timeless :=
    congrArg OrderRow.toOrderColumns ht
  have hhistory : row.history.map StatusChange.timeless = row'.history.map StatusChange.timeless :=
    congrArg OrderRow.history ht
  simp [OrderRow.timeless, hcolumns, hhistory, hchange, OrderRow.services_of_timeless ht,
    OrderRow.items_of_timeless ht]

theorem findActiveCustomer_inStep (h : Alike o m v.picture v'.picture) (id : Uuid) :
    InStep o m Eq v v' (exec (.findActiveCustomer id) v) (exec (.findActiveCustomer id) v') := by
  have hsame : v.customers.find? id = v'.customers.find? id := congrFun h.customers id
  simp only [exec, hsame]
  exact inStep_read rfl

theorem findService_inStep (h : Alike o m v.picture v'.picture) (id : Uuid) :
    InStep o m Eq v v' (exec (.findService id) v) (exec (.findService id) v') := by
  have hsame : v.services.find? id = v'.services.find? id := congrFun h.services id
  simp only [exec, hsame]
  exact inStep_read rfl

theorem findItem_inStep (h : Alike o m v.picture v'.picture) (id : Uuid) :
    InStep o m (fun found found' => found.map ItemRow.label = found'.map ItemRow.label) v v'
      (exec (.findItem id) v) (exec (.findItem id) v') :=
  inStep_read (h.labels id)

theorem insertOutbox_inStep {row row' : OutboxRow} (h : row.timeless = row'.timeless) :
    InStep o m (fun _ _ => True) v v' (exec (.insertOutbox row) v)
      (exec (.insertOutbox row') v') := by
  refine .answered trivial ⟨_, does_addOutbox row, ?_⟩
  rw [h]
  exact does_addOutbox row'

end Statements

end CarRepairShop
