import CarRepairShop.Operations

/-! # What writes do to the tables

A transaction becomes visible as the list of its writes. This module says what
a list of writes leaves in each table: for each key the last row written wins,
and the outbox grows by the messages stored, in order.

It also fixes what the units of work may rely on while others commit (`Rely`):
a row whose lock they hold stays as it is, orders stay and move only with
their version, and a recorded message stays recorded.
-/

namespace CarRepairShop

open Lib Txn

/-! ## The last write wins -/

/-- The last value that `f` reads off a list of writes. -/
def lastOf {α : Type} (f : Write → Option α) : List Write → Option α
  | [] => none
  | w :: ws => (lastOf f ws).or (f w)

section LastOf

variable {α : Type} {f : Write → Option α}

@[simp] theorem lastOf_nil : lastOf f [] = none := rfl

@[simp] theorem lastOf_cons (w : Write) (ws : List Write) :
    lastOf f (w :: ws) = (lastOf f ws).or (f w) := rfl

/-- What comes later counts. -/
@[simp] theorem lastOf_append (ws ws' : List Write) :
    lastOf f (ws ++ ws') = (lastOf f ws').or (lastOf f ws) := by
  induction ws with
  | nil => simp
  | cons w ws ih => simp [ih, Option.or_assoc]

theorem lastOf_eq_none_iff {ws : List Write} : lastOf f ws = none ↔ ∀ w ∈ ws, f w = none := by
  induction ws with
  | nil => simp
  | cons w ws ih =>
      simp only [lastOf_cons, Option.or_eq_none_iff, List.forall_mem_cons, ih]
      exact And.comm

/-- What is written last was written. -/
theorem mem_of_lastOf {ws : List Write} {a : α} (h : lastOf f ws = some a) :
    ∃ w ∈ ws, f w = some a := by
  induction ws with
  | nil => cases h
  | cons w ws ih =>
      rw [lastOf_cons] at h
      rcases Option.or_eq_some_iff.mp h with h | ⟨-, h⟩
      · rcases ih h with ⟨w', hw', hf⟩
        exact ⟨w', List.mem_cons_of_mem _ hw', hf⟩
      · exact ⟨w, List.mem_cons_self, h⟩

end LastOf

/-! ## Table by table -/

/-- The row a write stores for order `o`. -/
def Write.order? (o : Uuid) : Write → Option OrderRow
  | .putOrder row _ => if row.id = o then some row else none
  | _ => none

/-- What a write leaves of item `i`: a row, or nothing when it removes it. -/
def Write.item? (i : Uuid) : Write → Option (Option ItemRow)
  | .putItem row _ => if row.id = i then some (some row) else none
  | .eraseItem id => if id = i then some none else none
  | _ => none

/-- What a write leaves of service `s`. -/
def Write.service? (s : Uuid) : Write → Option (Option ServiceRow)
  | .putService row _ => if row.id = s then some (some row) else none
  | .eraseService id => if id = s then some none else none
  | _ => none

/-- The row a write stores for customer `c`. -/
def Write.customer? (c : Uuid) : Write → Option CustomerRow
  | .putCustomer row _ => if row.id = c then some row else none
  | _ => none

/-- The record a write makes of message `m`. -/
def Write.processed? (m : Uuid) : Write → Option ProcessedRow
  | .putProcessed row => if row.messageId = m then some row else none
  | _ => none

/-- The message a write stores. -/
def Write.outbox? : Write → Option OutboxRow
  | .addOutbox row => some row
  | _ => none

/-- The row that writes leave of order `o`, if they write it. -/
abbrev lastOrder (ws : List Write) (o : Uuid) : Option OrderRow := lastOf (Write.order? o) ws

/-- What writes leave of item `i`, if they write it. -/
abbrev lastItem (ws : List Write) (i : Uuid) : Option (Option ItemRow) :=
  lastOf (Write.item? i) ws

/-- What writes leave of service `s`, if they write it. -/
abbrev lastService (ws : List Write) (s : Uuid) : Option (Option ServiceRow) :=
  lastOf (Write.service? s) ws

/-- The row that writes leave of customer `c`, if they write it. -/
abbrev lastCustomer (ws : List Write) (c : Uuid) : Option CustomerRow :=
  lastOf (Write.customer? c) ws

/-- The record that writes make of message `m`. -/
abbrev lastProcessed (ws : List Write) (m : Uuid) : Option ProcessedRow :=
  lastOf (Write.processed? m) ws

/-- The messages that writes store, in order. -/
def stored (ws : List Write) : List OutboxRow := ws.filterMap Write.outbox?

@[simp] theorem stored_nil : stored [] = [] := rfl

@[simp] theorem stored_append (ws ws' : List Write) :
    stored (ws ++ ws') = stored ws ++ stored ws' :=
  List.filterMap_append

section Apply

variable (db : Db) (ws : List Write)

/-- A row after a list of writes is the last one written, or the one before. -/
@[simp] theorem applyAll_orders (o : Uuid) :
    (postgres.applyAll db ws).orders.find? o = (lastOrder ws o).or (db.orders.find? o) := by
  induction ws generalizing db with
  | nil => rfl
  | cons w ws ih =>
      rw [Engine.applyAll_cons, ih]
      show (lastOrder ws o).or _ = ((lastOrder ws o).or (w.order? o)).or _
      rw [Option.or_assoc]
      congr 1
      cases w <;> simp [postgres, Db.write, Write.order?]
      split <;> rfl

/-- An item may have been erased. -/
@[simp] theorem applyAll_items (i : Uuid) :
    (postgres.applyAll db ws).items.find? i = (lastItem ws i).getD (db.items.find? i) := by
  induction ws generalizing db with
  | nil => rfl
  | cons w ws ih =>
      rw [Engine.applyAll_cons, ih]
      show (lastItem ws i).getD _ = ((lastItem ws i).or (w.item? i)).getD _
      rw [Option.getD_or]
      congr 1
      cases w <;> simp [postgres, Db.write, Write.item?]
      · split <;> rfl
      · split <;> rfl

@[simp] theorem applyAll_services (s : Uuid) :
    (postgres.applyAll db ws).services.find? s
      = (lastService ws s).getD (db.services.find? s) := by
  induction ws generalizing db with
  | nil => rfl
  | cons w ws ih =>
      rw [Engine.applyAll_cons, ih]
      show (lastService ws s).getD _ = ((lastService ws s).or (w.service? s)).getD _
      rw [Option.getD_or]
      congr 1
      cases w <;> simp [postgres, Db.write, Write.service?]
      · split <;> rfl
      · split <;> rfl

@[simp] theorem applyAll_customers (c : Uuid) :
    (postgres.applyAll db ws).customers.find? c
      = (lastCustomer ws c).or (db.customers.find? c) := by
  induction ws generalizing db with
  | nil => rfl
  | cons w ws ih =>
      rw [Engine.applyAll_cons, ih]
      show (lastCustomer ws c).or _ = ((lastCustomer ws c).or (w.customer? c)).or _
      rw [Option.or_assoc]
      congr 1
      cases w <;> simp [postgres, Db.write, Write.customer?]
      split <;> rfl

@[simp] theorem applyAll_processed (m : Uuid) :
    (postgres.applyAll db ws).processed.find? m
      = (lastProcessed ws m).or (db.processed.find? m) := by
  induction ws generalizing db with
  | nil => rfl
  | cons w ws ih =>
      rw [Engine.applyAll_cons, ih]
      show (lastProcessed ws m).or _ = ((lastProcessed ws m).or (w.processed? m)).or _
      rw [Option.or_assoc]
      congr 1
      cases w <;> simp [postgres, Db.write, Write.processed?]
      split <;> rfl

/-- Messages are appended in the order of their writes. -/
@[simp] theorem applyAll_outbox : (postgres.applyAll db ws).outbox = db.outbox ++ stored ws := by
  induction ws generalizing db with
  | nil => simp
  | cons w ws ih =>
      rw [Engine.applyAll_cons, ih]
      cases w <;> simp [postgres, Db.write, Write.outbox?, stored, List.filterMap_cons]

end Apply

/-- Writes of no order leave the orders. -/
theorem applyAll_orders_same (db : Db) {ws : List Write} (h : ∀ o, lastOrder ws o = none) :
    (postgres.applyAll db ws).orders = db.orders := by
  induction ws generalizing db with
  | nil => rfl
  | cons w ws ih =>
      have hsplit : ∀ o, lastOrder ws o = none ∧ w.order? o = none := by
        intro o
        exact Option.or_eq_none_iff.mp (h o)
      rw [Engine.applyAll_cons, ih _ fun o => (hsplit o).1]
      cases w with
      | putOrder row hc =>
          have hno := (hsplit row.id).2
          simp [Write.order?] at hno
      | _ => rfl

/-- Writes of one order move a sum over the orders by its last row, less the
row it had. -/
theorem applyAll_orders_sum (db : Db) {ws : List Write} {o : Uuid} {row : OrderRow}
    (hlast : lastOrder ws o = some row) (hother : ∀ o', o' ≠ o → lastOrder ws o' = none)
    (f : OrderRow → ℤ) :
    (postgres.applyAll db ws).orders.sum f
      = db.orders.sum f - ((db.orders.find? o).map f).getD 0 + f row := by
  induction ws generalizing db with
  | nil => cases hlast
  | cons w ws ih =>
      have hrest : ∀ o', o' ≠ o → lastOrder ws o' = none ∧ w.order? o' = none := by
        intro o' ho'
        exact Option.or_eq_none_iff.mp (hother o' ho')
      rw [Engine.applyAll_cons]
      by_cases hws : lastOrder ws o = none
      · -- `w` is the last write of the order
        have hw : w.order? o = some row := by
          have hor : (lastOrder ws o).or (w.order? o) = some row := hlast
          rwa [hws, Option.none_or] at hor
        have hnone : ∀ o', lastOrder ws o' = none := by
          intro o'
          by_cases ho' : o' = o
          · rw [ho', hws]
          · exact (hrest o' ho').1
        rw [applyAll_orders_same _ hnone]
        cases w with
        | putOrder row' hc =>
            simp only [Write.order?] at hw
            split at hw
            · next hid =>
              cases hw
              have hput := Table.sum_put db.orders row hc f
              rw [hid] at hput
              exact hput
            · cases hw
        | _ => cases hw
      · -- a later write replaces whatever `w` stores
        rcases Option.ne_none_iff_exists'.mp hws with ⟨row', hrow'⟩
        have heq : row' = row := by
          have hor : (lastOrder ws o).or (w.order? o) = some row := hlast
          rw [hrow', Option.some_or] at hor
          exact Option.some.inj hor
        rw [heq] at hrow'
        rw [ih _ hrow' fun o' ho' => (hrest o' ho').1]
        cases w with
        | putOrder r hc =>
            have hid : r.id = o := by
              by_contra hne
              have hno := (hrest r.id hne).2
              simp [Write.order?] at hno
            -- what `w` adds to the sum is what the later write takes off
            have hput := Table.sum_put db.orders r hc f
            have hfind := Table.find?_put db.orders r hc o
            rw [hid] at hput
            rw [if_pos hid] at hfind
            show (db.orders.put r hc).sum f - (((db.orders.put r hc).find? o).map f).getD 0 + f row = _
            rw [hput, hfind]
            simp only [Option.map_some, Option.getD_some]
            omega
        | _ => rfl

/-- An order is found under its own id. -/
theorem order_id {db : Db} {o : Uuid} {row : OrderRow} (h : db.orders.find? o = some row) :
    row.id = o := by
  have hkey := Table.key_of_find? (α := OrderRow) h
  exact hkey

/-- An item is found under its own id. -/
theorem item_id {db : Db} {i : Uuid} {row : ItemRow} (h : db.items.find? i = some row) :
    row.id = i :=
  Table.key_of_find? h

/-- What is written of an order satisfies the checks of its table. -/
theorem checks_of_lastOrder {ws : List Write} {o : Uuid} {row : OrderRow}
    (h : lastOrder ws o = some row) : row.Checks ∧ row.id = o := by
  rcases mem_of_lastOf h with ⟨w, -, hw⟩
  cases w with
  | putOrder row' hc =>
      simp only [Write.order?] at hw
      split at hw
      · next hid =>
        cases hw
        exact ⟨hc, hid⟩
      · cases hw
  | _ => cases hw

/-! ## Writes of one kind -/

/-- Writes that store item rows. -/
def ItemWrites (ws : List Write) : Prop := ∀ w ∈ ws, ∃ row h, w = .putItem row h

/-- Writes that store order `o` only, `row` last. -/
structure OrderWrites (o : Uuid) (row : OrderRow) (ws : List Write) : Prop where
  only : ∀ w ∈ ws, ∃ r h, w = .putOrder r h ∧ r.id = o
  last : lastOrder ws o = some row

/-- Writes that touch neither orders nor items, and store and record no
message. -/
def RegistryWrites (ws : List Write) : Prop :=
  ∀ w ∈ ws, (∃ row h, w = .putCustomer row h) ∨ (∃ row h, w = .putVehicle row h) ∨
    (∃ id, w = .eraseVehicle id) ∨ (∃ row h, w = .putService row h) ∨ ∃ id, w = .eraseService id

theorem lastOf_eq_none {α : Type} {f : Write → Option α} {ws : List Write}
    (h : ∀ w ∈ ws, f w = none) : lastOf f ws = none :=
  lastOf_eq_none_iff.mpr h

theorem stored_eq_nil {ws : List Write} (h : ∀ w ∈ ws, w.outbox? = none) : stored ws = [] :=
  List.filterMap_eq_nil_iff.mpr h

section ItemWrites

variable {ws : List Write} (h : ItemWrites ws)

include h

/-- Whatever an item row is not a write of, they do not write. -/
theorem ItemWrites.lastOf {α : Type} {f : Write → Option α}
    (hf : ∀ row hc, f (.putItem row hc) = none) : lastOf f ws = none := by
  apply lastOf_eq_none
  intro w hw
  rcases h w hw with ⟨row, hc, rfl⟩
  exact hf row hc

/-- Writes of items leave all other rows. -/
theorem ItemWrites.order (o : Uuid) : lastOrder ws o = none :=
  h.lastOf fun _ _ => rfl

theorem ItemWrites.service (s : Uuid) : lastService ws s = none :=
  h.lastOf fun _ _ => rfl

theorem ItemWrites.customer (c : Uuid) : lastCustomer ws c = none :=
  h.lastOf fun _ _ => rfl

theorem ItemWrites.processed (m : Uuid) : lastProcessed ws m = none :=
  h.lastOf fun _ _ => rfl

theorem ItemWrites.stored : stored ws = [] := by
  apply stored_eq_nil
  intro w hw
  rcases h w hw with ⟨row, hc, rfl⟩
  rfl

end ItemWrites

theorem ItemWrites.nil : ItemWrites [] := by
  intro w hw
  cases hw

theorem ItemWrites.append {ws ws' : List Write} (h : ItemWrites ws) (h' : ItemWrites ws') :
    ItemWrites (ws ++ ws') := by
  intro w hw
  rcases List.mem_append.mp hw with hw | hw
  · exact h w hw
  · exact h' w hw

section OrderWrites

variable {o : Uuid} {row : OrderRow} {ws : List Write} (h : OrderWrites o row ws)

include h

/-- Whatever a row of order `o` is not a write of, they do not write. -/
theorem OrderWrites.lastOf {α : Type} {f : Write → Option α}
    (hf : ∀ r hc, r.id = o → f (.putOrder r hc) = none) : lastOf f ws = none := by
  apply lastOf_eq_none
  intro w hw
  rcases h.only w hw with ⟨r, hc, rfl, hid⟩
  exact hf r hc hid

/-- Writes of one order leave the other orders, and all rows that are of no order. -/
theorem OrderWrites.other {o' : Uuid} (hne : o' ≠ o) : lastOrder ws o' = none := by
  apply h.lastOf
  intro r hc hid
  simp [Write.order?, hid, Ne.symm hne]

theorem OrderWrites.item (i : Uuid) : lastItem ws i = none :=
  h.lastOf fun _ _ _ => rfl

theorem OrderWrites.service (s : Uuid) : lastService ws s = none :=
  h.lastOf fun _ _ _ => rfl

theorem OrderWrites.customer (c : Uuid) : lastCustomer ws c = none :=
  h.lastOf fun _ _ _ => rfl

theorem OrderWrites.processed (m : Uuid) : lastProcessed ws m = none :=
  h.lastOf fun _ _ _ => rfl

theorem OrderWrites.stored : stored ws = [] := by
  apply stored_eq_nil
  intro w hw
  rcases h.only w hw with ⟨r, hc, rfl, -⟩
  rfl

/-- One more write of the order. -/
theorem OrderWrites.snoc {row' : OrderRow} (hc : row'.Checks) (hid : row'.id = o) :
    OrderWrites o row' (ws ++ [.putOrder row' hc]) where
  only := by
    intro w hw
    rcases List.mem_append.mp hw with hw | hw
    · exact h.only w hw
    · exact ⟨row', hc, List.mem_singleton.mp hw, hid⟩
  last := by simp [lastOrder, Write.order?, hid]

end OrderWrites

theorem OrderWrites.one {o : Uuid} {row : OrderRow} (hc : row.Checks) (hid : row.id = o) :
    OrderWrites o row [.putOrder row hc] where
  only := by
    intro w hw
    exact ⟨row, hc, List.mem_singleton.mp hw, hid⟩
  last := by simp [lastOrder, Write.order?, hid]

section RegistryWrites

variable {ws : List Write} (h : RegistryWrites ws)

include h

/-- Writes of the registry leave orders, items, records and messages. -/
theorem RegistryWrites.order (o : Uuid) : lastOrder ws o = none := by
  apply lastOf_eq_none
  intro w hw
  rcases h w hw with ⟨row, hc, rfl⟩ | ⟨row, hc, rfl⟩ | ⟨id, rfl⟩ | ⟨row, hc, rfl⟩ | ⟨id, rfl⟩ <;> rfl

theorem RegistryWrites.item (i : Uuid) : lastItem ws i = none := by
  apply lastOf_eq_none
  intro w hw
  rcases h w hw with ⟨row, hc, rfl⟩ | ⟨row, hc, rfl⟩ | ⟨id, rfl⟩ | ⟨row, hc, rfl⟩ | ⟨id, rfl⟩ <;> rfl

theorem RegistryWrites.processed (m : Uuid) : lastProcessed ws m = none := by
  apply lastOf_eq_none
  intro w hw
  rcases h w hw with ⟨row, hc, rfl⟩ | ⟨row, hc, rfl⟩ | ⟨id, rfl⟩ | ⟨row, hc, rfl⟩ | ⟨id, rfl⟩ <;> rfl

theorem RegistryWrites.stored : stored ws = [] := by
  apply stored_eq_nil
  intro w hw
  rcases h w hw with ⟨row, hc, rfl⟩ | ⟨row, hc, rfl⟩ | ⟨id, rfl⟩ | ⟨row, hc, rfl⟩ | ⟨id, rfl⟩ <;> rfl

end RegistryWrites

/-! ## What the others leave alone -/

/-- The interference that a unit of work holding `ws` has to live with: an
order never disappears and changes only together with its version, a message
once recorded stays recorded, and the rows written by `ws` stay as they are
under its locks. -/
structure Rely (ws : List Write) (a b : Db) : Prop where
  orderStays : ∀ o r, a.orders.find? o = some r → ∃ r', b.orders.find? o = some r' ∧
    r.version ≤ r'.version ∧ (r'.version = r.version → r' = r)
  orderHeld : ∀ o row, lastOrder ws o = some row → b.orders.find? o = a.orders.find? o
  itemHeld : ∀ i x, lastItem ws i = some x → b.items.find? i = a.items.find? i
  recordStays : ∀ m r, a.processed.find? m = some r → b.processed.find? m = some r
  recordHeld : ∀ m r, lastProcessed ws m = some r → b.processed.find? m = a.processed.find? m

theorem Rely.refl (ws : List Write) (db : Db) : Rely ws db db where
  orderStays _ r h := ⟨r, h, le_refl _, fun _ => rfl⟩
  orderHeld _ _ _ := rfl
  itemHeld _ _ _ := rfl
  recordStays _ _ h := h
  recordHeld _ _ _ := rfl

/-- What others do in two stretches they do in one. -/
theorem Rely.trans {ws : List Write} {a b c : Db} (h : Rely ws a b) (h' : Rely ws b c) :
    Rely ws a c where
  orderStays o r hr := by
    rcases h.orderStays o r hr with ⟨r', hr', hle, heq⟩
    rcases h'.orderStays o r' hr' with ⟨r'', hr'', hle', heq'⟩
    refine ⟨r'', hr'', hle.trans hle', fun hv => ?_⟩
    have hv' : r'.version = r.version := by omega
    rw [heq' (by omega), heq hv']
  orderHeld o row hrow := (h'.orderHeld o row hrow).trans (h.orderHeld o row hrow)
  itemHeld i x hx := (h'.itemHeld i x hx).trans (h.itemHeld i x hx)
  recordStays m r hr := h'.recordStays m r (h.recordStays m r hr)
  recordHeld m r hr := (h'.recordHeld m r hr).trans (h.recordHeld m r hr)

theorem lastOf_append_some {α : Type} {f : Write → Option α} {ws ws' : List Write} {x : α}
    (h : lastOf f ws = some x) : ∃ y, lastOf f (ws ++ ws') = some y := by
  rw [lastOf_append]
  cases h' : lastOf f ws' with
  | none => exact ⟨x, by simp [h]⟩
  | some y => exact ⟨y, rfl⟩

/-- Who holds fewer rows relies on less. -/
theorem Rely.held {ws ws' : List Write} {a b : Db} (h : Rely (ws ++ ws') a b) : Rely ws a b where
  orderStays := h.orderStays
  orderHeld o row hrow := by
    rcases lastOf_append_some hrow with ⟨y, hy⟩
    exact h.orderHeld o y hy
  itemHeld i x hx := by
    rcases lastOf_append_some hx with ⟨y, hy⟩
    exact h.itemHeld i y hy
  recordStays := h.recordStays
  recordHeld m r hr := by
    rcases lastOf_append_some hr with ⟨y, hy⟩
    exact h.recordHeld m y hy

theorem interference_rely : Interference Rely where
  refl := Rely.refl
  trans _ _ _ _ := Rely.trans
  held _ _ _ _ := Rely.held

/-- What a commit has to respect: it writes an order only with a later
version, and records only a message that was not recorded. -/
structure Advances (db : Db) (ws : List Write) : Prop where
  order : ∀ o r r', db.orders.find? o = some r → lastOrder ws o = some r' → r.version < r'.version
  record : ∀ m r, lastProcessed ws m = some r → db.processed.find? m = none

/-- Two writes that lock one key in modes that exclude each other conflict. -/
theorem conflicts_of_locks {w w' : Write} {k : LockKey} {m m' : LockMode}
    (hw : (k, m) ∈ w.locks) (hw' : (k, m') ∈ w'.locks) (hm : m.conflicts m' = true) :
    w.conflicts w' = true := by
  unfold Write.conflicts
  rw [List.any_eq_true]
  refine ⟨(k, m), hw, ?_⟩
  rw [List.any_eq_true]
  exact ⟨(k, m'), hw', by simpa using hm⟩

theorem Write.lock_order {w : Write} {o : Uuid} {r : OrderRow} (h : w.order? o = some r) :
    (LockKey.order o, LockMode.noKeyUpdate) ∈ w.locks := by
  cases w with
  | putOrder row hc =>
      simp only [Write.order?] at h
      split at h
      · next hid => simp [Write.locks, hid]
      · cases h
  | _ => cases h

/-- Storing an item row and removing it both exclude any other write of it. -/
theorem Write.lock_item {w : Write} {i : Uuid} {x : Option ItemRow} (h : w.item? i = some x) :
    (LockKey.item i, LockMode.noKeyUpdate) ∈ w.locks ∨ (LockKey.item i, LockMode.update) ∈ w.locks := by
  cases w with
  | putItem row hc =>
      simp only [Write.item?] at h
      split at h
      · next hid => simp [Write.locks, hid]
      · cases h
  | eraseItem id =>
      simp only [Write.item?] at h
      split at h
      · next hid => simp [Write.locks, hid]
      · cases h
  | _ => cases h

theorem Write.lock_processed {w : Write} {m : Uuid} {r : ProcessedRow}
    (h : w.processed? m = some r) : (LockKey.processed m, LockMode.update) ∈ w.locks := by
  cases w with
  | putProcessed row =>
      simp only [Write.processed?] at h
      split at h
      · next hid => simp [Write.locks, hid]
      · cases h
  | _ => cases h

/-- A commit clear of the held writes does no more than they rely on. -/
theorem rely_of_commit {db : Db} {ws held : List Write} (hadv : Advances db ws)
    (hclear : ∀ w ∈ ws, ∀ w' ∈ held, w.conflicts w' = false) :
    Rely held db (postgres.applyAll db ws) := by
  -- a row that both would have written is a lock they cannot both hold
  have hapart : ∀ {α : Type} (f : Write → Option α) (x : α),
      (∀ w w' : Write, ∀ y y', f w = some y → f w' = some y' → w.conflicts w' = true) →
      lastOf f held = some x → lastOf f ws = none := by
    intro α f x hconf hheld
    cases hws : lastOf f ws with
    | none => rfl
    | some y =>
        exfalso
        rcases mem_of_lastOf hws with ⟨w, hw, hfw⟩
        rcases mem_of_lastOf hheld with ⟨w', hw', hfw'⟩
        have hc := hconf w w' y x hfw hfw'
        rw [hclear w hw w' hw'] at hc
        cases hc
  constructor
  · intro o r hr
    rw [applyAll_orders]
    cases hlast : lastOrder ws o with
    | none => exact ⟨r, by simp [hr], le_refl _, fun _ => rfl⟩
    | some r' =>
        -- a commit that writes an order has claimed its version, which grew
        have hlt := hadv.order o r r' hr hlast
        refine ⟨r', rfl, by omega, fun hv => ?_⟩
        omega
  · intro o row hrow
    have hnone : lastOrder ws o = none := by
      refine hapart _ row (fun w w' y y' hy hy' => ?_) hrow
      exact conflicts_of_locks (Write.lock_order hy) (Write.lock_order hy') rfl
    rw [applyAll_orders, hnone]
    rfl
  · intro i x hx
    have hnone : lastItem ws i = none := by
      refine hapart _ x (fun w w' y y' hy hy' => ?_) hx
      rcases Write.lock_item hy with h | h <;> rcases Write.lock_item hy' with h' | h' <;>
        exact conflicts_of_locks h h' rfl
    rw [applyAll_items, hnone]
    rfl
  · intro m r hr
    have hnone : lastProcessed ws m = none := by
      cases hlast : lastProcessed ws m with
      | none => rfl
      | some r' =>
          -- the record was not there when the other stored it
          rw [hadv.record m r' hlast] at hr
          cases hr
    rw [applyAll_processed, hnone]
    exact hr
  · intro m r hr
    have hnone : lastProcessed ws m = none := by
      refine hapart _ r (fun w w' y y' hy hy' => ?_) hr
      exact conflicts_of_locks (Write.lock_processed hy) (Write.lock_processed hy') rfl
    rw [applyAll_processed, hnone]
    rfl

/-- Conflicts are mutual. -/
theorem Write.conflicts_comm (w w' : Write) : w.conflicts w' = w'.conflicts w := by
  have hmode : ∀ m m' : LockMode, m.conflicts m' = m'.conflicts m := by
    intro m m'
    cases m <;> cases m' <;> rfl
  have himp : ∀ v v' : Write, v.conflicts v' = true → v'.conflicts v = true := by
    intro v v' h
    unfold Write.conflicts at h
    simp only [List.any_eq_true, Bool.and_eq_true, beq_iff_eq] at h
    rcases h with ⟨⟨k, m⟩, hl, ⟨k', m'⟩, hl', hk, hm⟩
    simp only at hk hm
    subst hk
    rw [hmode] at hm
    exact conflicts_of_locks hl' hl hm
  rw [Bool.eq_iff_iff]
  exact ⟨himp w w', himp w' w⟩

end CarRepairShop
