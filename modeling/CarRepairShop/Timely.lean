import CarRepairShop.History
import CarRepairShop.Lib.Clocked

/-! # The times of an order

An order has a date for being opened, started, finished and delivered, and its
history has the time of each change of status. Read off in the order of the
changes, each preceded by the date of the status it led to, these are the times
of the order (`OrderRow.timeline`). Here it is shown what each unit of work does
to them: it reads the clock for a date once it has read the order, and for the
history once it holds the order.
-/

namespace CarRepairShop

open Lib Txn Prog

/-! ## Rows -/

/-- The statuses an order gets a date for when it reaches them. -/
def OSStatus.dated : OSStatus → Bool
  | .execution | .finished | .delivered => true
  | _ => false

/-- The date an order has for a status. -/
def OrderRow.dateOf (row : OrderRow) : OSStatus → Option ℕ
  | .received => some row.createdAt
  | .execution => row.startedAt
  | .finished => row.finishedAt
  | .delivered => row.deliveredAt
  | _ => none

/-- The date an update sets for a status. -/
def ServiceOrderChanges.dateOf (data : ServiceOrderChanges) : OSStatus → Option ℕ
  | .execution => data.startedAt
  | .finished => data.finishedAt
  | .delivered => data.deliveredAt
  | _ => none

/-- The times of one change of status. -/
def OrderRow.timesOf (row : OrderRow) (change : StatusChange) : List ℕ :=
  (row.dateOf change.toStatus).toList ++ [change.changedAt]

def OrderRow.timeline (row : OrderRow) : List ℕ := row.history.flatMap row.timesOf

/-- At time `t`, the times of the order never decrease along its history and
are not from the future, and it has a date for exactly the dated statuses it
has been in. -/
structure OrderRow.Timely (t : ℕ) (row : OrderRow) : Prop where
  sorted : (row.timeline ++ [t]).Pairwise (· ≤ ·)
  dates : ∀ status, status.dated = true →
    ((row.dateOf status).isSome = true ↔ status ∈ pathOf row.history)

section Rows

variable {row r₀ r₁ : OrderRow} {data : ServiceOrderChanges} {t n : ℕ}

theorem sorted_snoc {l : List ℕ} {a b : ℕ} (h : (l ++ [a]).Pairwise (· ≤ ·)) (hab : a ≤ b) :
    (l ++ [a] ++ [b]).Pairwise (· ≤ ·) := by
  refine List.pairwise_append.mpr ⟨h, List.pairwise_singleton _ _, ?_⟩
  intro x hx y hy
  rw [List.mem_singleton.mp hy]
  rcases List.mem_append.mp hx with hx | hx
  · exact ((List.pairwise_append.mp h).2.2 x hx a (List.mem_singleton_self a)).trans hab
  · rw [List.mem_singleton.mp hx]
    exact hab

theorem sorted_later {l : List ℕ} {a b : ℕ} (h : (l ++ [a]).Pairwise (· ≤ ·)) (hab : a ≤ b) :
    (l ++ [b]).Pairwise (· ≤ ·) := by
  obtain ⟨hl, -, hall⟩ := List.pairwise_append.mp h
  refine List.pairwise_append.mpr ⟨hl, List.pairwise_singleton _ _, ?_⟩
  intro x hx y hy
  rw [List.mem_singleton.mp hy]
  exact (hall x hx a (List.mem_singleton_self a)).trans hab

theorem OrderRow.Timely.later (h : row.Timely n) (hnt : n ≤ t) : row.Timely t :=
  ⟨sorted_later h.sorted hnt, h.dates⟩

/-- The times of an order depend on the dates of the statuses in its history. -/
theorem flatMap_timesOf {history : List StatusChange}
    (h : ∀ c ∈ history, r₁.dateOf c.toStatus = r₀.dateOf c.toStatus) :
    history.flatMap r₁.timesOf = history.flatMap r₀.timesOf := by
  induction history with
  | nil => rfl
  | cons c history ih =>
      have hc : r₁.timesOf c = r₀.timesOf c := by
        unfold OrderRow.timesOf
        rw [h c (List.mem_cons_self ..)]
      rw [List.flatMap_cons, List.flatMap_cons, hc, ih fun c' hc' => h c' (List.mem_cons_of_mem _ hc')]

theorem OrderRow.dateOf_eq_none {status : OSStatus} (hopened : status ≠ .received)
    (hdated : status.dated = false) : row.dateOf status = none := by
  cases status with
  | received => exact absurd rfl hopened
  | execution | finished | delivered => cases hdated
  | _ => rfl

/-- An update keeps the dates it does not set. -/
theorem Revision.dateOf (h : Revision data r₀ r₁) (status : OSStatus) :
    r₁.dateOf status = (data.dateOf status).or (r₀.dateOf status) := by
  cases status with
  | received =>
      change some r₁.createdAt = some r₀.createdAt
      rw [h.columns]
      rfl
  | execution => exact congrArg OrderColumns.startedAt h.columns
  | finished => exact congrArg OrderColumns.finishedAt h.columns
  | delivered => exact congrArg OrderColumns.deliveredAt h.columns
  | _ => rfl

/-- What an update does about the times of the row `r₀`: it sets a date for the
status it sets, if that one is dated, and for no other, and took it from the
clock after all times of the row; it stores its change of status at time `n`. -/
structure ServiceOrderChanges.Stamps (data : ServiceOrderChanges) (r₀ : OrderRow) (n : ℕ) : Prop where
  own : ∀ status date, data.dateOf status = some date →
    data.status = some status ∧ date ≤ n ∧ r₀.Timely date
  dated : ∀ status, status.dated = true → data.status = some status →
    (data.dateOf status).isSome = true

theorem ServiceOrderChanges.Stamps.keeps (h : data.Stamps r₀ n) (hrev : Revision data r₀ r₁)
    {status : OSStatus} (hs : data.status ≠ some status) : r₁.dateOf status = r₀.dateOf status := by
  rw [hrev.dateOf]
  cases hd : data.dateOf status with
  | none => rfl
  | some date => exact absurd (h.own status date hd).1 hs

/-- An order moves to a status it has not been in. -/
theorem OrderRow.Accounted.fresh (h : row.Accounted) {b : OSStatus}
    (hb : canTransition row.status b = true) : b ∉ pathOf row.history := by
  have hall : ∀ path ∈ lives, path.Nodup := by
    decide
  have hnodup := hall _ (lives_move h.path h.chain.getLast hb)
  rw [List.nodup_append] at hnodup
  exact fun hmem => hnodup.2.2 b hmem b (List.mem_singleton_self b) rfl

/-- A status the order has not been in has no date yet. -/
theorem OrderRow.Timely.undated (h : row.Timely n) (hacc : row.Accounted) {b : OSStatus}
    (hb : b ∉ pathOf row.history) : row.dateOf b = none := by
  cases hdated : b.dated with
  | true =>
      by_contra hsome
      exact hb ((h.dates b hdated).mp (Option.isSome_iff_ne_none.mpr hsome))
  | false =>
      refine OrderRow.dateOf_eq_none (fun hopened => hb ?_) hdated
      obtain ⟨_, _, hopening⟩ := hacc.opening
      rw [hopened, hopening]
      exact List.mem_cons_self ..

/-- An update that sets no status leaves the times as they are. -/
theorem timeline_kept (hrev : Revision data r₀ r₁) (hstatus : data.status = none)
    (hhistory : r₁.history = r₀.history) (hstamps : data.Stamps r₀ n) :
    (∀ status, r₁.dateOf status = r₀.dateOf status) ∧ r₁.timeline = r₀.timeline := by
  have hsame : ∀ status, r₁.dateOf status = r₀.dateOf status := fun status =>
    hstamps.keeps hrev (by simp [hstatus])
  refine ⟨hsame, ?_⟩
  unfold OrderRow.timeline
  rw [hhistory, flatMap_timesOf fun c _ => hsame c.toStatus]

/-- An update that moves the order adds the times of the new status at the end. -/
theorem timeline_moved (h : r₀.Timely n) (hacc : r₀.Accounted) (hrev : Revision data r₀ r₁)
    {b : OSStatus} (hstatus : data.status = some b) (hb : canTransition r₀.status b = true)
    (hhistory : r₁.history = r₀.history ++ [⟨some r₀.status, b, n⟩])
    (hstamps : data.Stamps r₀ n) :
    (∀ status, status ≠ b → r₁.dateOf status = r₀.dateOf status) ∧
      r₀.dateOf b = none ∧ r₁.dateOf b = data.dateOf b ∧
      r₁.timeline = r₀.timeline ++ ((data.dateOf b).toList ++ [n]) := by
  have hfresh := hacc.fresh hb
  have hold : ∀ status, status ≠ b → r₁.dateOf status = r₀.dateOf status := fun status hne =>
    hstamps.keeps hrev (by rw [hstatus]; exact fun heq => hne (Option.some.inj heq).symm)
  have hnone := h.undated hacc hfresh
  have hnew : r₁.dateOf b = data.dateOf b := by
    rw [hrev.dateOf, hnone, Option.or_none]
  have hbefore : r₀.history.flatMap r₁.timesOf = r₀.timeline := by
    refine flatMap_timesOf fun c hc => hold _ fun hcb => hfresh ?_
    rw [← hcb]
    exact List.mem_map_of_mem hc
  refine ⟨hold, hnone, hnew, ?_⟩
  rw [OrderRow.timeline, hhistory, List.flatMap_append, hbefore, List.flatMap_singleton,
    OrderRow.timesOf, hnew]

theorem OrderRow.Timely.moved (h : r₀.Timely n) (hacc : r₀.Accounted) (hrev : Revision data r₀ r₁)
    {b : OSStatus} (hstatus : data.status = some b) (hb : canTransition r₀.status b = true)
    (hhistory : r₁.history = r₀.history ++ [⟨some r₀.status, b, n⟩])
    (hstamps : data.Stamps r₀ n) : r₁.Timely n := by
  obtain ⟨hold, -, hnew, htimeline⟩ := timeline_moved h hacc hrev hstatus hb hhistory hstamps
  constructor
  · rw [htimeline]
    cases hd : data.dateOf b with
    | none => exact sorted_snoc h.sorted (Nat.le_refl n)
    | some date =>
        -- the date comes after all that was there, and before the change itself
        obtain ⟨-, hdn, hknown⟩ := hstamps.own b date hd
        have hsorted := sorted_snoc (sorted_snoc hknown.sorted hdn) (Nat.le_refl n)
        simpa using hsorted
  · intro status hdated
    have hpath : status ∈ pathOf r₁.history ↔ status ∈ pathOf r₀.history ∨ status = b := by
      rw [hhistory, pathOf, List.map_append, List.mem_append]
      simp [pathOf]
    rw [hpath]
    by_cases hs : status = b
    · subst hs
      rw [hnew]
      exact ⟨fun _ => Or.inr rfl, fun _ => hstamps.dated _ hdated hstatus⟩
    · rw [hold status hs, h.dates status hdated]
      exact ⟨Or.inl, fun hor => hor.resolve_right hs⟩

/-- What becomes of the times of an order: it keeps them, and may have more at
the end. -/
structure TimesGrow (r₀ r₁ : OrderRow) : Prop where
  timeline : ∃ times, r₁.timeline = r₀.timeline ++ times
  dates : ∀ status date, r₀.dateOf status = some date → r₁.dateOf status = some date

/-- An update leaves the order timely, with all the times it had. -/
theorem OrderRow.Timely.revise (h : r₀.Timely n) (hacc : r₀.Accounted) (hrev : Revision data r₀ r₁)
    (hhistory : r₁.history = r₀.history ++ statusChange r₀.status data.status n)
    (hlegal : ∀ b, data.status = some b → canTransition r₀.status b = true)
    (hstamps : data.Stamps r₀ n) : r₁.Timely n ∧ TimesGrow r₀ r₁ := by
  cases hstatus : data.status with
  | none =>
      rw [hstatus, statusChange, List.append_nil] at hhistory
      obtain ⟨hsame, htimeline⟩ := timeline_kept hrev hstatus hhistory hstamps
      refine ⟨⟨?_, ?_⟩, ⟨[], by rw [htimeline, List.append_nil]⟩, ?_⟩
      · rw [htimeline]
        exact h.sorted
      · intro status hdated
        rw [hsame, hhistory]
        exact h.dates status hdated
      · exact fun status date hd => (hsame status).trans hd
  | some b =>
      have hb := hlegal b hstatus
      have hsnoc : r₁.history = r₀.history ++ [⟨some r₀.status, b, n⟩] := by
        rw [hhistory, hstatus]
        simp [statusChange, canTransition_ne hb]
      obtain ⟨hold, hnone, -, htimeline⟩ := timeline_moved h hacc hrev hstatus hb hsnoc hstamps
      refine ⟨h.moved hacc hrev hstatus hb hsnoc hstamps, ⟨_, htimeline⟩, fun status date hd => ?_⟩
      rw [hold status, hd]
      rintro rfl
      rw [hnone] at hd
      cases hd

end Rows

/-! ## Transactions -/

/-- At time `t`, every order accounts for its status and is timely. -/
def TimelyTables (t : ℕ) (db : Db) : Prop :=
  ∀ o row, db.orders.find? o = some row → row.Accounted ∧ row.Timely t

/-- What a transaction makes of the times of an order, by time `t`. -/
inductive Dated (t : ℕ) : Option OrderRow → OrderRow → Prop where
  | opened {row : OrderRow} (timely : row.Timely t) : Dated t none row
  | updated {r₀ r₁ : OrderRow} (data : ServiceOrderChanges) (n : ℕ) (revision : Revision data r₀ r₁)
      (legal : ∀ b, data.status = some b → canTransition r₀.status b = true)
      (history : r₁.history = r₀.history ++ statusChange r₀.status data.status n)
      (stamps : data.Stamps r₀ n) (known : r₀.Timely n) (time : n ≤ t) : Dated t (some r₀) r₁

/-- Every order that the transaction has written is dated. -/
def DatedTx (tx : ShopTx) (t : ℕ) (db : Db) : Prop :=
  ∀ o row, lastOrder tx.writes o = some row → Dated t (db.orders.find? o) row

/-- Whenever the row read as `order` is claimed, its times are not after `date`. -/
def KnownBy (date : ℕ) (o : Uuid) (order : ServiceOrder) (db : Db) : Prop :=
  ∀ db' r₀, Rely [] db db' → db'.orders.find? o = some r₀ → r₀.version = order.version →
    r₀.Timely date

section Transactions

variable {R : List Write → Db → Db → Prop} {tx tx' : ShopTx} {t t' : ℕ} {db db' : Db}
variable {o : Uuid} {order : ServiceOrder} {α : Type}

/-- The rule for a statement followed by the rest of the unit of work. -/
theorem ensuresAt_sql {I : ℕ → Db → Prop} {Q : α → ShopTx → ℕ → Db → Prop} {s : Stmt}
    {k : s.Resp → Work α} : (sql s >>= k).EnsuresAt postgres R I Q tx t db ↔
      ∀ t' db', Later R I tx.writes t db t' db' →
        ∀ r ws, exec s (postgres.view tx db') = .ok (r, ws) →
          (k r).EnsuresAt postgres R I Q (tx.record s r ws) t' db' :=
  Iff.rfl

theorem TimelyTables.later (h : TimelyTables t db) (ht : t ≤ t') : TimelyTables t' db := by
  intro o row hrow
  obtain ⟨hacc, htimely⟩ := h o row hrow
  exact ⟨hacc, htimely.later ht⟩

theorem Dated.later {before : Option OrderRow} {row : OrderRow} (h : Dated t before row)
    (ht : t ≤ t') : Dated t' before row := by
  cases h with
  | opened htimely => exact .opened (htimely.later ht)
  | updated data n hrev hlegal hhistory hstamps hknown htime =>
      exact .updated data n hrev hlegal hhistory hstamps hknown (htime.trans ht)

theorem DatedTx.none (h : ∀ o, lastOrder tx.writes o = none) : DatedTx tx t db := by
  intro o row hrow
  rw [h o] at hrow
  cases hrow

/-- What is dated stays dated, as long as the transaction writes no order. -/
theorem DatedTx.later (hR : ShopInterference R) (h : DatedTx tx t db)
    (hsame : ∀ o, lastOrder tx'.writes o = lastOrder tx.writes o)
    (hl : Later R TimelyTables tx.writes t db t' db') : DatedTx tx' t' db' := by
  intro o row hrow
  rw [hsame] at hrow
  rw [(hR.rely _ _ _ hl.moved).orderHeld o row hrow]
  exact (h o row hrow).later hl.time

/-- A unit of work that sends no statement to the orders. -/
theorem DatedTx.frame (hR : ShopInterference R) (h : DatedTx tx t db) (hI : TimelyTables t db)
    {p : Work α} (hp : p.Issues fun s => s.table ≠ .orders) :
    p.EnsuresAt postgres R TimelyTables (fun _ tx t db => DatedTx tx t db) tx t db := by
  have hsame : p.Ensures postgres R (fun _ _ _ => True)
      (fun _ tx' _ => ∀ o, lastOrder tx'.writes o = lastOrder tx.writes o) tx db := by
    refine hp.ensures (I := fun tx' : ShopTx =>
      ∀ o, lastOrder tx'.writes o = lastOrder tx.writes o) ?_ fun _ => rfl
    intro s v r ws tx' hs he hlast o
    rw [Tx.record_writes, lastOrder, lastOf_append]
    have hnone : lastOf (Write.order? o) ws = Option.none := by
      refine lastOf_eq_none fun w hw => ?_
      have hmakes := exec_makes s v r ws he w hw
      cases w with
      | putOrder row hc => exact absurd (of_decide_eq_true hmakes) hs
      | _ => rfl
    rw [hnone]
    exact hlast o
  refine ((EnsuresAt.of_ensures hR.toInterference hsame).since hR.toInterference hI).post ?_
  rintro - tx₁ t₁ d₁ ⟨hlast, hl⟩ -
  exact h.later hR hlast hl

theorem KnownBy.stable (h : KnownBy t o order db) (hdb : Rely [] db db') :
    KnownBy t o order db' :=
  fun db'' r₀ hdb' => h db'' r₀ (hdb.trans hdb')

/-- The clock that is read after the order knows its times. -/
theorem KnownBy.of_seen (h : Seen o order db) (hI : TimelyTables t db) : KnownBy t o order db := by
  intro db' r₀ hdb hr₀ hversion
  obtain ⟨r, hr, hle, -⟩ := h
  obtain ⟨r', hr', hle', hsame⟩ := hdb.orderStays o r hr
  obtain rfl : r' = r₀ := Option.some.inj (hr'.symm.trans hr₀)
  -- it still has the version that was read, so it is the row that was there
  rw [hsame (by omega)]
  exact (hI o r hr).2

/-! ## Updates -/

/-- An update that went through, at time `t`: it claimed the row `r₀`, left the
row `r₁`, and read the clock for its change of status at time `n`, while it held
the order. -/
structure UpdatedAt (o : Uuid) (data : ServiceOrderChanges) (expected : Option ℕ) (tx : ShopTx)
    (t : ℕ) (db : Db) (r₀ r₁ : OrderRow) (n : ℕ) : Prop where
  found : db.orders.find? o = some r₀
  order : lastOrder tx.writes o = some r₁
  others : ∀ o', o' ≠ o → lastOrder tx.writes o' = none
  revision : Revision data r₀ r₁
  history : r₁.history = r₀.history ++ statusChange r₀.status data.status n
  expected : ∀ v, expected = some v → r₀.version = v
  known : r₀.Timely n
  time : n ≤ t

theorem ServiceOrderRepository.recordChange_at (hR : ShopInterference R) {row r₀ : OrderRow}
    {tx₀ : ShopTx} {ws : List Write} {cs : List VersionClaim} (h : Rewrote o row tx₀ tx ws cs)
    (hr₀ : db.orders.find? o = some r₀) (hI : TimelyTables t db) (previous : OSStatus)
    (status : Option OSStatus) :
    (ServiceOrderRepository.recordChange o previous status).EnsuresAt postgres R TimelyTables
      (fun _ tx' t' _ => ∃ ws' n, Rewrote o
        { row with history := row.history ++ statusChange previous status n } tx₀ tx' ws' cs ∧
        r₀.Timely n ∧ t ≤ n ∧ n ≤ t') tx t db := by
  have hquiet : ∀ status, statusChange previous status t = [] →
      (Prog.pure () : Work Unit).EnsuresAt postgres R TimelyTables
        (fun _ tx' t' _ => ∃ ws' n, Rewrote o
          { row with history := row.history ++ statusChange previous status n } tx₀ tx' ws' cs ∧
          r₀.Timely n ∧ t ≤ n ∧ n ≤ t') tx t db := by
    intro status hnone t' db' hl
    refine ⟨ws, t, ?_, (hI o r₀ hr₀).2, Nat.le_refl t, hl.time⟩
    rw [hnone, List.append_nil]
    exact h
  unfold ServiceOrderRepository.recordChange
  cases status with
  | none => exact hquiet none rfl
  | some toStatus =>
      by_cases heq : toStatus = previous
      · simp only [heq, if_true]
        exact hquiet (some previous) (by simp [statusChange])
      · simp only [heq, if_false]
        -- the order is held, so at the time read here it is still the row `r₀`
        intro n d₁ h₁
        have hknown : r₀.Timely n := (h₁.holds o r₀ (by rw [h.held hR h₁.moved, hr₀])).2
        refine ensuresAt_sql.mpr fun t₂ d₂ h₂ r ws₁ he => ?_
        rcases changeOrder_ok he (h.order d₂) with ⟨row₁, hc₁, hf₁, rfl⟩
        simp only [Except.ok.injEq, Prod.mk.injEq, true_and] at hf₁
        have hw₁ := h.record (s := .insertHistory o _) (r := r) hc₁ (by rw [← hf₁]) rfl
        intro t₃ d₃ h₃
        have hchange : statusChange previous (some toStatus) n =
            [{ fromStatus := some previous, toStatus, changedAt := n }] := by
          simp [statusChange, heq]
        refine ⟨ws ++ [.putOrder row₁ hc₁], n, ?_, hknown, h₁.time, h₂.time.trans h₃.time⟩
        rw [hchange, hf₁]
        exact hw₁

/-- The end of an update: the columns, and the history row. -/
theorem ServiceOrderRepository.setColumns_at (hR : ShopInterference R) {row r₀ : OrderRow}
    {tx₀ : ShopTx} {ws : List Write} {cs : List VersionClaim} (h : Rewrote o row tx₀ tx ws cs)
    (hr₀ : db.orders.find? o = some r₀) (data : OrderScalar) (previous : OSStatus) :
    (sql (.updateOrder o data) >>= fun columns =>
        ServiceOrderRepository.includeRelations columns >>= fun order =>
          ServiceOrderRepository.recordChange o previous data.status >>= fun _ =>
            (Prog.pure (some order) : Work (Option ServiceOrder))).EnsuresAt postgres R TimelyTables
      (fun _ tx' t' db' => db'.orders.find? o = some r₀ ∧ ∃ ws' n, Rewrote o
        { data.apply row with history := row.history ++ statusChange previous data.status n }
        tx₀ tx' ws' cs ∧ r₀.Timely n ∧ t ≤ n ∧ n ≤ t') tx t db := by
  refine ensuresAt_sql.mpr fun t₁ d₁ h₁ columns ws₁ he => ?_
  rcases changeOrder_ok he (h.order d₁) with ⟨row₁, hc₁, hf₁, rfl⟩
  simp only [Except.ok.injEq, Prod.mk.injEq] at hf₁
  rcases hf₁ with ⟨rfl, rfl⟩
  have hw₁ := h.record (s := .updateOrder o data) (r := (data.apply row).toOrderColumns) hc₁ rfl rfl
  have hr₁ : d₁.orders.find? o = some r₀ := by rw [h.held hR h₁.moved, hr₀]
  refine EnsuresAt.seq hR.toInterference h₁.holds (.of_ensures hR.toInterference
    (ServiceOrderRepository.includeRelations_ensures hw₁ _)) ?_
  rintro order tx₂ t₂ d₂ ⟨hw₂, -, -⟩ h₂
  have hr₂ : d₂.orders.find? o = some r₀ := by rw [hw₁.held hR h₂.moved, hr₁]
  refine EnsuresAt.seq hR.toInterference h₂.holds
    (ServiceOrderRepository.recordChange_at hR hw₂ hr₂ h₂.holds previous data.status) ?_
  rintro - tx₃ t₃ d₃ ⟨ws₃, n, hw₃, hknown, htn, hnt⟩ h₃
  intro t₄ d₄ h₄
  refine ⟨?_, ws₃, n, hw₃, hknown, (h₁.time.trans h₂.time).trans htn, hnt.trans h₄.time⟩
  rw [hw₃.held hR h₄.moved, hw₂.held hR h₃.moved, hr₂]

theorem ServiceOrderRepository.update_at (hR : ShopInterference R) {id : IdText}
    (hid : id.column? = some o) (data : ServiceOrderChanges) (expected : Option ℕ)
    (hno : ∀ o, lastOrder tx.writes o = none) (hthere : ∃ r, db.orders.find? o = some r) :
    (ServiceOrderRepository.update id data expected).EnsuresAt postgres R TimelyTables
      (fun _ tx' t' db' => ∃ r₀ r₁ n, UpdatedAt o data expected tx' t' db' r₀ r₁ n ∧ t ≤ n)
      tx t db := by
  unfold ServiceOrderRepository.update
  simp only [hid]
  refine ensuresAt_sql.mpr fun t₁ d₁ h₁ claimed ws₁ he => ?_
  rcases found_stable hthere (hR.rely _ _ _ h₁.moved) with ⟨r₀, hr₁⟩
  simp only [exec, view_orders hno, hr₁] at he
  split at he
  · next hcond =>
    rcases map_ok he with ⟨ws', hst, heq⟩
    cases heq
    rcases storeOrder_ok hst with ⟨hc, rfl⟩
    have hw₁ : Rewrote o { r₀ with version := r₀.version + 1 } tx
        (tx.record (.claimVersion o expected) 1 [.putOrder _ hc]) [.putOrder _ hc]
        [⟨o, expected, 1⟩] := by
      have hid : r₀.id = o := order_id hr₁
      exact ⟨⟨rfl, [⟨.claimVersion o expected, 1⟩], rfl, rfl⟩, OrderWrites.one hc hid⟩
    simp only [Nat.one_ne_zero, if_false]
    refine ensuresAt_sql.mpr fun t₂ d₂ h₂ previous ws₂ he => ?_
    simp only [exec, hw₁.order, Except.ok.injEq, Prod.mk.injEq] at he
    rcases he with ⟨rfl, rfl⟩
    have hw₂ := hw₁.read (s := .findStatusOrThrow o) (r := r₀.status) rfl
    have hr₂ : d₂.orders.find? o = some r₀ := by rw [hw₁.held hR h₂.moved, hr₁]
    refine EnsuresAt.seq hR.toInterference h₂.holds (.of_ensures hR.toInterference
      (ServiceOrderRepository.replaceServices_ensures hR hw₂ data.services)) ?_
    rintro - tx₃ t₃ d₃ ⟨ws₃, ids, hw₃, hsame₃, hnew₃⟩ h₃
    have hr₃ : d₃.orders.find? o = some r₀ := by rw [hw₂.held hR h₃.moved, hr₂]
    refine EnsuresAt.seq hR.toInterference h₃.holds (.of_ensures hR.toInterference
      (ServiceOrderRepository.replaceItems_ensures hR hw₃ data.items)) ?_
    rintro - tx₄ t₄ d₄ ⟨ws₄, new, hw₄, hsame₄, hnew₄⟩ h₄
    have hr₄ : d₄.orders.find? o = some r₀ := by rw [hw₃.held hR h₄.moved, hr₃]
    refine (ServiceOrderRepository.setColumns_at hR hw₄ hr₄ data.toOrderScalar
      r₀.status).post ?_
    rintro - tx₅ t₅ d₅ ⟨hr₅, ws₅, n, hw₅, hknown, htn, hnt⟩ -
    refine ⟨r₀, { data.toOrderScalar.apply
      { r₀ with version := r₀.version + 1, services := ids, items := new } with
      history := r₀.history ++ statusChange r₀.status data.status n }, n,
      ⟨hr₅, ?_, ?_, ?_, rfl, ?_, hknown, hnt⟩, ?_⟩
    · rw [hw₅.continues.writes, lastOrder, lastOf_append]
      rw [show lastOf (Write.order? o) ws₅ = some _ from hw₅.writes.last]
      rfl
    · intro o' ho'
      rw [hw₅.continues.writes, lastOrder, lastOf_append]
      rw [show lastOf (Write.order? o') ws₅ = none from hw₅.writes.other ho']
      exact hno o'
    · exact ⟨rfl, hsame₃, fun l hl => (hnew₃ l hl).1, hsame₄, fun l hl => (hnew₄ l hl).1, n, rfl⟩
    · intro v hv
      rcases hcond with hn | hs
      · rw [hn] at hv
        cases hv
      · rw [hs] at hv
        exact Option.some.inj hv
    · exact (h₁.time.trans h₂.time).trans ((h₃.time.trans h₄.time).trans htn)
  · -- the claim is lost: the order is still there, so the update throws
    simp only [Except.ok.injEq, Prod.mk.injEq] at he
    rcases he with ⟨rfl, rfl⟩
    simp only [if_true]
    refine ensuresAt_sql.mpr fun t₂ d₂ h₂ existing ws₂ he => ?_
    rcases found_stable ⟨r₀, hr₁⟩ (hR.rely _ _ _ h₂.moved) with ⟨r₂, hr₂⟩
    have hview : (postgres.view (tx.record (.claimVersion o expected) 0 []) d₂).orders.find? o
        = some r₂ := by
      rw [view_orders _ d₂ o, hr₂]
      intro o'
      simpa using hno o'
    simp only [exec, hview, Option.isSome_some, if_true, Except.ok.injEq, Prod.mk.injEq] at he
    rcases he with ⟨rfl, rfl⟩
    trivial

end Transactions

end CarRepairShop
