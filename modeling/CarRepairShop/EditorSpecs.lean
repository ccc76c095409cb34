import CarRepairShop.Commits

/-! # The order operations keep their specifications

`CreateServiceOrder`, the four line editors and `DeliverOS`, each from its
first statement to its commit.
-/

namespace CarRepairShop

open Lib Txn Prog

section Orders

variable {R : List Write → Db → Db → Prop} {G : ShopTx → Stmt → Db → Prop}

theorem Continues.start {tx : ShopTx} {ws : List Write} {cs : List VersionClaim}
    (h : Continues {} tx ws cs) : tx.writes = ws ∧ claims tx.trace = cs := by
  refine ⟨h.writes, ?_⟩
  rcases h.trace with ⟨t, ht, hcs⟩
  rw [ht]
  exact hcs

theorem Found.stable (hR : ShopInterference R) {o : Uuid} {order : ServiceOrder} {tx tx' : ShopTx}
    {ws : List Write} {a b : Db} (h : Found R o order tx tx' a) (hab : R ws a b) :
    Found R o order tx tx' b := by
  rcases h.services with ⟨ss, hss, hwas, hread⟩
  rcases h.items with ⟨ls, hls, hwas', hread'⟩
  refine ⟨h.id, h.seen.stable (hR.rely _ _ _ hab), h.status.stable hR.toInterference hab, ?_, ?_,
    h.itemRows⟩
  · exact ⟨ss, hss, hwas.stable hR.toInterference hab, hread⟩
  · exact ⟨ls, hls, hwas'.stable hR.toInterference hab, hread'⟩

theorem findOSOrThrow_ensures (hR : ShopInterference R) (osId : IdText) {tx : ShopTx} {db : Db}
    (hno : ∀ o, lastOrder tx.writes o = none) :
    (findOSOrThrow osId).Ensures postgres R G
      (fun os tx' db' => Continues tx tx' [] [] ∧ ∃ o, osId.column? = some o ∧
        Found R o os tx tx' db') tx db := by
  unfold findOSOrThrow
  refine Ensures.seq hR.toInterference (ServiceOrderRepository.findById_ensures hR osId hno) ?_
  rintro found tx₁ d₁ ⟨hc, hfound⟩ -
  cases found with
  | none => trivial
  | some os =>
      rcases hfound with ⟨o, ho, hf⟩
      intro db' h'
      exact ⟨hc, o, ho, hf.stable hR h'⟩

/-! ## Line editors -/

/-- A line editor's transaction, put together from its reads, the item row it
may have written, and its update of the order. -/
theorem edited_of_updated (hR : ShopInterference R) {o : Uuid} {os : ServiceOrder}
    {tx₁ tx₂ tx₃ : ShopTx} {db : Db} {data : ServiceOrderChanges} {r₀ r₁ : OrderRow}
    {wi wo : List Write} {ids : List Uuid} {lines : List ItemLine}
    (hf : Found R o os {} tx₁ db) (hstatus : os.status = .diagnosis)
    (hids : os.services = entityServices ids) (hlines : os.items = entityItems lines)
    (hc₁ : Continues {} tx₁ [] []) (hc₂ : Continues tx₁ tx₂ wi [])
    (hwi : ItemWrites wi ∧ wi.length ≤ 1)
    (hthere : ∀ i x, lastItem wi i = some x → (db.items.find? i).isSome = true)
    (hu : Updated R G o data none tx₂ tx₃ db r₀ r₁ wo) :
    Edited R G o ids lines data r₀ r₁ wi tx₃ db := by
  have hwrites₂ : tx₂.writes = wi := by
    have h := (hc₁.trans hc₂).start.1
    simpa using h
  have hstart : Continues {} tx₃ (wi ++ wo) [⟨o, none, 1⟩] := by
    have h := (hc₁.trans hc₂).trans hu.rewrote.continues
    simpa using h
  rcases hstart.start with ⟨hwrites₃, hclaims₃⟩
  -- the lines the caller speaks of are the ones that were read
  rcases hf.services with ⟨ids', hids', hwasIds, hreadIds⟩
  rcases hf.items with ⟨lines', hlines', hwasLines, hreadLines⟩
  have hsame : ids' = ids := by
    have heq := hids'.symm.trans hids
    simpa [entityServices, List.map_inj_right] using heq
  have hsame' : lines' = lines := by
    have heq := hlines'.symm.trans hlines
    have hinj : Function.Injective fun l : ItemLine => (⟨l.itemId.text, l.quantity⟩ : OSItem) := by
      rintro ⟨i, q⟩ ⟨i', q'⟩ h
      simpa using h
    exact hinj.list_map heq
  subst hsame hsame'
  -- before the claim at most an item row was written
  have hno₂ : ∀ o', lastOrder tx₂.writes o' = none := by
    intro o'
    rw [hwrites₂]
    exact hwi.1.order o'
  have hread₂ : serviceLinesRead o tx₂.trace = some ids' :=
    hc₂.serviceLinesRead (by rw [hreadIds]; rfl)
  have hread₂' : itemLinesRead o tx₂.trace = some lines' :=
    hc₂.itemLinesRead (by rw [hreadLines]; rfl)
  refine ⟨⟨hu.found, ?_, ?_, hu.revision, hclaims₃, hu.expected⟩, ?_, hwasIds, hwasLines, ?_, ?_, ?_,
    ⟨wo, hwrites₃, hu.rewrote.writes⟩, hwi, ?_, ?_⟩
  · rw [hwrites₃, lastOrder, lastOf_append]
    rw [show lastOf (Write.order? o) wo = some r₁ from hu.rewrote.writes.last]
    rfl
  · intro o' ho'
    rw [hwrites₃, lastOrder, lastOf_append]
    rw [show lastOf (Write.order? o') wo = none from hu.rewrote.writes.other ho']
    exact hwi.1.order o'
  · rw [← hstatus]
    exact hf.status
  · exact hu.rewrote.continues.serviceLinesRead hread₂
  · exact hu.rewrote.continues.itemLinesRead hread₂'
  -- when the version was claimed the lines had been read
  · refine hu.claimed.imp ?_
    rintro d ⟨hd, hg⟩
    exact ⟨hd, tx₂, hno₂, hread₂, hread₂', hg⟩
  · intro hsome s hs
    rcases Option.isSome_iff_exists.mp hsome with ⟨l, hl⟩
    refine (hu.servicesThere l hl).imp ?_
    intro d hd
    have hview := hd s hs
    rw [Engine.view, applyAll_services, hwrites₂, hwi.1.service s] at hview
    exact hview
  · intro hsome x hx
    rcases Option.isSome_iff_exists.mp hsome with ⟨l, hl⟩
    -- an item whose row this transaction wrote is locked, so it is there now
    cases hlast : lastItem wi x.itemId with
    | none =>
        refine (hu.itemsThere l hl).imp ?_
        intro d hd
        have hview := hd x hx
        rw [Engine.view, applyAll_items, hwrites₂, hlast] at hview
        exact hview
    | some y => exact Was.now hR.toInterference (hthere _ y hlast)

/-- The update of an order that was found does not find it missing. -/
theorem Found.there {o : Uuid} {os : ServiceOrder} {tx tx' : ShopTx} {db : Db}
    (h : Found R o os tx tx' db) : ∃ r, db.orders.find? o = some r := by
  rcases h.seen with ⟨r, hr, -⟩
  exact ⟨r, hr⟩

/-- The update at the end of a line editor. -/
theorem edit_ensures (hR : ShopInterference R) {osId : IdText} {o : Uuid}
    (ho : osId.column? = some o) {os : ServiceOrder} {tx₁ tx₂ : ShopTx} {db : Db}
    {wi : List Write} {ids : List Uuid} {lines : List ItemLine}
    (hf : Found R o os {} tx₁ db) (hstatus : os.status = .diagnosis)
    (hids : os.services = entityServices ids) (hlines : os.items = entityItems lines)
    (hc₁ : Continues {} tx₁ [] []) (hc₂ : Continues tx₁ tx₂ wi [])
    (hwi : ItemWrites wi ∧ wi.length ≤ 1)
    (hthere : ∀ db', R tx₂.writes db db' → ∀ i x, lastItem wi i = some x →
      (db'.items.find? i).isSome = true) (data : ServiceOrderChanges) :
    (ServiceOrderRepository.update osId data).Ensures postgres R G
      (fun _ tx₃ db' => R tx₂.writes db db' ∧ ∃ r₀ r₁ wo, Continues tx₂ tx₃ wo [⟨o, none, 1⟩] ∧
        OrderWrites o r₁ wo ∧ Edited R G o ids lines data r₀ r₁ wi tx₃ db') tx₂ db := by
  have hno₂ : ∀ o, lastOrder tx₂.writes o = none := by
    intro o'
    have hwrites : tx₂.writes = wi := by
      have h := (hc₁.trans hc₂).start.1
      simpa using h
    rw [hwrites]
    exact hwi.1.order o'
  refine ((ServiceOrderRepository.update_ensures hR ho data none hno₂
    hf.there).since hR.toInterference).post ?_
  rintro result tx₃ db' ⟨⟨r₀, r₁, wo, hu, -⟩, h'⟩
  refine ⟨h', r₀, r₁, wo, hu.rewrote.continues, hu.rewrote.writes, ?_⟩
  exact edited_of_updated hR (hf.stable hR h') hstatus hids hlines hc₁ hc₂ hwi (hthere db' h') hu

/-- How the four line editors start: each reads the order, with its lines, and
refuses one that is not in diagnosis. -/
theorem diagnosis_ensures (hR : ShopInterference R) {α : Type} {osId : IdText} {e : AppError}
    {k : ServiceOrder → Work α} {Q : α → ShopTx → Db → Prop} {db : Db}
    (hk : ∀ (os : ServiceOrder) (o : Uuid) (ids : List Uuid) (lines : List ItemLine) (tx₁ : ShopTx)
      (d₁ : Db), osId.column? = some o → Found R o os {} tx₁ d₁ → os.status = .diagnosis →
        os.services = entityServices ids → os.items = entityItems lines → Continues {} tx₁ [] [] →
          (k os).Ensures postgres R G Q tx₁ d₁) :
    (findOSOrThrow osId >>= fun os => if os.status ≠ .diagnosis then throwApp e else k os).Ensures
      postgres R G Q {} db := by
  refine Ensures.seq hR.toInterference
    (findOSOrThrow_ensures hR osId (by intro o; rfl)) ?_
  rintro os tx₁ d₁ ⟨hc₁, o, ho, hf⟩ -
  split
  · trivial
  · next hstatus =>
    rcases hf.services with ⟨ids, hids, -, -⟩
    rcases hf.items with ⟨lines, hlines, -, -⟩
    exact hk os o ids lines tx₁ d₁ ho hf (by simpa using hstatus) hids hlines hc₁

theorem AddItemToOS.execute_ensures (hR : ShopInterference R) (osId itemId : IdText) (quantity : ℤ)
    {db : Db} :
    (AddItemToOS.execute osId itemId quantity).Ensures postgres R G
      (fun _ tx db' => ∃ o i ids lines r₀ r₁ ws, osId.column? = some o ∧
        ItemAdded R G o itemId quantity i ids lines r₀ r₁ ws tx db') {} db := by
  unfold AddItemToOS.execute
  refine diagnosis_ensures hR fun os o ids lines tx₁ d₁ ho hf hstatus hids hlines hc₁ => ?_
  refine Ensures.seq hR.toInterference (ItemRepository.findById_ensures hR itemId) ?_
  rintro item tx₂ d₂ ⟨hc₂, -⟩ h₂
  cases item with
  | none => trivial
  | some item =>
      have hempty : tx₂.writes = [] := by
        have h := (hc₁.trans hc₂).start.1
        simpa using h
      have hnone : Shift tx₂.writes d₂ (fun _ => 0) (fun _ => 0) := by
        rw [hempty]
        exact Shift.none (fun _ => rfl) d₂
      refine Ensures.seq hR.toInterference
        (ItemRepository.reserve_ensures hR itemId quantity hnone) ?_
      rintro reserved tx₃ d₃ hres h₃
      cases reserved with
      | false => trivial
      | true =>
          rcases hres rfl with ⟨i, wi, hi, hmoved⟩
          have hwrites₃ : tx₃.writes = wi := by
            rw [hmoved.continues.writes, hempty, List.nil_append]
          -- the row is locked, so the units stay reserved whatever the others do
          have hmoves : ∀ d₄, R tx₃.writes d₃ d₄ →
              Shift tx₃.writes d₄ (unitsAt i quantity) (fun _ => 0) := by
            intro d₄ h₄
            have hshift := hmoved.shift.stable (hR.rely _ _ _ h₄)
            refine hshift.congr (fun j => ?_) (fun j => ?_)
            · simp
            · simp [unitsAt]
          refine (edit_ensures hR ho ((hf.stable hR h₂).stable hR h₃) hstatus
            hids hlines hc₁ (hc₂.trans hmoved.continues)
            ⟨hmoved.writes, hmoved.one.le⟩ ?_ _).post ?_
          · intro d₄ h₄ j x hx
            change lastItem wi j = some x at hx
            rw [← hwrites₃] at hx
            rcases hmoves d₄ h₄ j with ⟨hlast, -, -⟩ | ⟨row, hrow, -⟩
            · rw [hlast] at hx
              cases hx
            · simp [hrow]
          · rintro result tx₄ d₄ ⟨h₄, r₀, r₁, wo, hc₄, hwo, hedited⟩
            refine ⟨o, i, ids, lines, r₀, r₁, wi, ho, ⟨hi, ?_, ?_, ?_⟩⟩
            · rw [hlines] at hedited
              exact hedited
            · rw [hc₄.writes]
              exact (hmoves d₄ h₄).append hwo.item
            -- the condition of the `UPDATE` still holds of the locked row
            · rcases hmoved.condition with ⟨row, hrow, hcond⟩
              rcases hmoved.written with ⟨x, hx⟩
              rw [← hwrites₃] at hx
              refine ⟨row, ?_, by simpa using hcond⟩
              rw [(hR.rely _ _ _ h₄).itemHeld i x hx]
              rw [Engine.view, hempty] at hrow
              exact hrow

/-- An absolute write of the counter of an item, by a transaction that wrote
nothing before: it sets the row, unless the item has gone. -/
theorem ItemRepository.setReserved_ensures (hR : ShopInterference R) {itemId : IdText} {i : Uuid}
    (hi : itemId.column? = some i) (x : ℤ) {tx : ShopTx} {db : Db} (hempty : tx.writes = []) :
    (ItemRepository.update itemId { reservedQuantity := some x }).Ensures postgres R G
      (fun _ tx' db' => ∃ wi, Continues tx tx' wi [] ∧ ItemWrites wi ∧ wi.length ≤ 1 ∧
        ((wi = [] ∧ Was R (fun d => d.items.find? i = none) db') ∨
        ∃ row : ItemRow, db'.items.find? i = some row ∧
          OnlyItem i (some { row with reservedQuantity := x }) wi ∧
          Was R (fun d => d.items.find? i = some row ∧ ∃ txu : ShopTx, txu.writes = [] ∧
            Continues tx txu [] [] ∧
            G txu (.updateItem i { reservedQuantity := some x }) (postgres.view txu d)) db'))
      tx db := by
  unfold ItemRepository.update
  simp only [hi]
  refine ensures_sql.mpr fun d₁ h₁ _ existing ws₁ he => ?_
  simp only [exec, Except.ok.injEq, Prod.mk.injEq] at he
  rcases he with ⟨hrow, rfl⟩
  have hview : ∀ (t : ShopTx) (d : Db), t.writes = [] → postgres.view t d = d := by
    intro t d ht
    rw [Engine.view, ht]
    rfl
  cases existing with
  | none =>
      intro db' h'
      rw [hview tx d₁ hempty] at hrow
      -- no row to write: the item was gone at this moment
      have hnow : Was R (fun d => d.items.find? i = none) d₁ := Was.now hR.toInterference hrow
      refine ⟨[], (Continues.refl tx).read rfl, ItemWrites.nil, Nat.zero_le _, Or.inl ⟨rfl, ?_⟩⟩
      exact hnow.stable hR.toInterference h'
  | some existing =>
      refine ensures_sql.mpr fun d₂ h₂ hg row' ws₂ he => ?_
      have hempty₂ : (Tx.record tx (.findItem i) (some existing) []).writes = [] := by
        simp [hempty]
      have hfind : (postgres.view (Tx.record tx (.findItem i) (some existing) []) d₂).items.find? i
          = d₂.items.find? i := by
        rw [hview _ d₂ hempty₂]
      simp only [exec, hfind] at he
      cases hrow₂ : d₂.items.find? i with
      | none => simp [hrow₂] at he
      | some row =>
          simp only [hrow₂] at he
          rcases map_ok he with ⟨ws', hst, heq⟩
          cases heq
          rcases storeItem_ok hst with ⟨hc, rfl⟩
          have hid : row.id = i := item_id hrow₂
          have honly : OnlyItem i (some { row with reservedQuantity := x })
              [.putItem _ hc] := by
            rw [← hid]
            exact OnlyItem.one hc
          intro db' h'
          refine ⟨_, ((Continues.refl tx).read rfl).record rfl, ?_, by simp, Or.inr
            ⟨row, ?_, honly, ?_⟩⟩
          · intro w hw
            exact ⟨_, hc, List.mem_singleton.mp hw⟩
          -- the lock keeps the row as it was written over
          · have hheld := (hR.rely _ _ _ h').itemHeld i _ (by
              rw [Tx.record_writes, Tx.record_writes, hempty]
              exact honly.item)
            rw [hheld, hrow₂]
          · have hnow : Was R (fun d => d.items.find? i = some row ∧ ∃ txu : ShopTx,
                txu.writes = [] ∧ Continues tx txu [] [] ∧
                G txu (.updateItem i { reservedQuantity := some x })
                  (postgres.view txu d)) d₂ :=
              Was.now hR.toInterference ⟨hrow₂, _, hempty₂, (Continues.refl tx).read rfl, hg⟩
            exact hnow.stable hR.toInterference h'

/-- The line a removal finds is a stored one, and its item is named the way
PostgreSQL prints it. -/
theorem stored_line {lines : List ItemLine} {itemId : IdText} {existing : OSItem}
    (h : (entityItems lines).find? (fun l => l.itemId = itemId) = some existing) :
    ∃ line ∈ lines, itemId = line.itemId.text ∧ existing.quantity = line.quantity := by
  rcases List.mem_map.mp (List.mem_of_find?_eq_some h) with ⟨line, hline, rfl⟩
  have hid := List.find?_some h
  exact ⟨line, hline, (of_decide_eq_true hid).symm, rfl⟩

theorem RemoveItemFromOS.execute_ensures (hR : ShopInterference R) (osId itemId : IdText)
    {db : Db} :
    (RemoveItemFromOS.execute osId itemId).Ensures postgres R G
      (fun _ tx db' => ∃ o line ids lines r₀ r₁ ws, osId.column? = some o ∧
        ItemRemoved R G o itemId line ids lines r₀ r₁ ws tx db') {} db := by
  unfold RemoveItemFromOS.execute
  refine diagnosis_ensures hR fun os o ids lines tx₁ d₁ ho hf hstatus hids hlines hc₁ => ?_
  split
  · trivial
  · next existing hexisting =>
    rw [hlines] at hexisting
    -- the line found is a stored one, named the way PostgreSQL prints it
    rcases stored_line hexisting with ⟨line, hline, hitem, hqty⟩
    have hcol : itemId.column? = some line.itemId := by
      rw [hitem]
      rfl
    refine Ensures.seq hR.toInterference (ItemRepository.findById_ensures hR itemId) ?_
    rintro item tx₂ d₂ ⟨hc₂, hread⟩ h₂
    rcases hread line.itemId hcol with ⟨readRow, hfound, hrowRead, hwasRow⟩
    rw [hf.itemRows] at hrowRead
    have hempty₁ : tx₁.writes = [] := hc₁.start.1
    have hempty₂ : tx₂.writes = [] := by
      have h := (hc₁.trans hc₂).start.1
      simpa using h
    have hview : ∀ d : Db, postgres.view tx₁ d = d := by
      intro d
      rw [Engine.view, hempty₁]
      rfl
    simp only [hview] at hwasRow
    have hf₂ := hf.stable hR h₂
    cases item with
    | none =>
        -- the item has gone: the lines change and no counter does
        have hnone : readRow = none := by
          cases readRow with
          | none => rfl
          | some row => cases hfound
        subst hnone
        refine (edit_ensures hR ho hf₂ hstatus hids hlines hc₁ hc₂
          ⟨ItemWrites.nil, Nat.zero_le _⟩ (fun _ _ i x hx => by cases hx) _).post ?_
        rintro result tx₃ d₃ ⟨h₃, r₀, r₁, wo, -, -, hedited⟩
        rw [hlines] at hedited
        refine ⟨o, line, ids, lines, r₀, r₁, [], ho, ⟨hitem, hline, hedited, Or.inl ⟨rfl, ?_⟩⟩⟩
        exact hwasRow.stable hR.toInterference h₃
    | some item =>
        obtain ⟨row₀, rfl, hent⟩ : ∃ row₀, readRow = some row₀ ∧ item = row₀.toEntity := by
          rcases Option.map_eq_some_iff.mp hfound.symm with ⟨row₀, hrow₀, hent⟩
          exact ⟨row₀, hrow₀, hent.symm⟩
        have hx : item.reservedQuantity - existing.quantity
            = row₀.reservedQuantity - line.quantity := by
          rw [hent, hqty]
          rfl
        -- the value written depends on the read alone, not on the row it meets
        show (ItemRepository.update itemId
            { reservedQuantity := some (item.reservedQuantity - existing.quantity) } >>= fun _ =>
              ServiceOrderRepository.update osId
                { items := some (os.items.filter fun i => i.itemId ≠ itemId) }).Ensures
          postgres R G _ tx₂ d₂
        rw [hx]
        refine Ensures.seq hR.toInterference
          (ItemRepository.setReserved_ensures hR hcol _ hempty₂) ?_
        rintro updated tx₃ d₃ ⟨wi, hc₃, hwi, hone, hset⟩ h₃
        refine (edit_ensures hR ho (hf₂.stable hR h₃) hstatus hids hlines hc₁ (hc₂.trans hc₃)
          ⟨by simpa using hwi, by simpa using hone⟩ ?_ _).post ?_
        · intro d₄ h₄ i x hlast
          rw [List.nil_append] at hlast
          rcases hset with ⟨rfl, -⟩ | ⟨row, hrow, honly, -⟩
          · cases hlast
          · by_cases hi : i = line.itemId
            · subst hi
              rw [(hR.rely _ _ _ h₄).itemHeld line.itemId x (by
                rw [hc₃.writes, hempty₂, List.nil_append, hlast]), hrow]
              rfl
            · rw [honly.others i hi] at hlast
              cases hlast
        · rintro result tx₄ d₄ ⟨h₄, r₀, r₁, wo, hc₄, hwo, hedited⟩
          rw [hlines] at hedited
          have hwrites₄ : tx₄.writes = wi ++ wo := by
            rw [hc₄.writes, hc₃.writes, hempty₂, List.nil_append]
          refine ⟨o, line, ids, lines, r₀, r₁, _, ho, ⟨hitem, hline, hedited, ?_⟩⟩
          -- the item may still have gone between the read and the write
          rcases hset with ⟨rfl, hgone⟩ | ⟨row, hrow, honly, hwritten⟩
          · exact Or.inl ⟨rfl, hgone.stable hR.toInterference h₄⟩
          · refine Or.inr ⟨row₀, row, ?_, ?_, ?_, ?_, ?_⟩
            · exact hc₄.itemRowRead (hc₃.itemRowRead hrowRead)
            · exact (hwasRow.stable hR.toInterference h₃).stable hR.toInterference h₄
            · rw [(hR.rely _ _ _ h₄).itemHeld line.itemId _ (by
                rw [hc₃.writes, hempty₂, List.nil_append, honly.item])]
              exact hrow
            · rw [hwrites₄]
              exact honly.append hwo.item
            · refine (hwritten.stable hR.toInterference h₄).imp ?_
              rintro d ⟨hd, txu, hempty, hcu, hg⟩
              exact ⟨hd, txu, hempty, hcu.itemRowRead hrowRead, hg⟩

theorem AddServiceToOS.execute_ensures (hR : ShopInterference R) (osId serviceId : IdText)
    {db : Db} :
    (AddServiceToOS.execute osId serviceId).Ensures postgres R G
      (fun _ tx db' => ∃ o ids lines r₀ r₁, osId.column? = some o ∧
        ServiceAdded R G o serviceId ids lines r₀ r₁ tx db') {} db := by
  unfold AddServiceToOS.execute
  refine diagnosis_ensures hR fun os o ids lines tx₁ d₁ ho hf hstatus hids hlines hc₁ => ?_
  cases hcol : serviceId.column? with
  | none =>
      -- an id of no column finds no service
      simp only [ServiceRepository.findById, hcol]
      trivial
  | some key =>
      refine Ensures.seq hR.toInterference (ServiceRepository.findById_ensures serviceId) ?_
      rintro service tx₂ d₂ ⟨hc₂, -⟩ h₂
      cases service with
      | none => trivial
      | some service =>
          dsimp only
          split
          · trivial
          · next hnew =>
            refine (edit_ensures hR ho (hf.stable hR h₂) hstatus hids hlines hc₁ hc₂
              ⟨ItemWrites.nil, Nat.zero_le _⟩ (fun _ _ i x hx => by cases hx) _).post ?_
            rintro result tx₃ d₃ ⟨-, r₀, r₁, wo, -, -, hedited⟩
            rw [hids] at hedited hnew
            exact ⟨o, ids, lines, r₀, r₁, ho, ⟨⟨key, hcol⟩, Bool.eq_false_iff.mpr hnew, hedited⟩⟩

theorem RemoveServiceFromOS.execute_ensures (hR : ShopInterference R) (osId serviceId : IdText)
    {db : Db} :
    (RemoveServiceFromOS.execute osId serviceId).Ensures postgres R G
      (fun _ tx db' => ∃ o ids lines r₀ r₁, osId.column? = some o ∧
        ServiceRemoved R G o serviceId ids lines r₀ r₁ tx db') {} db := by
  unfold RemoveServiceFromOS.execute
  refine diagnosis_ensures hR fun os o ids lines tx₁ d₁ ho hf hstatus hids hlines hc₁ => ?_
  split
  · next hthere =>
    refine (edit_ensures hR ho hf hstatus hids hlines hc₁
      (Continues.refl tx₁) ⟨ItemWrites.nil, Nat.zero_le _⟩
      (fun _ _ i x hx => by cases hx) _).post ?_
    rintro result tx₃ d₃ ⟨-, r₀, r₁, wo, -, -, hedited⟩
    rw [hids] at hedited hthere
    exact ⟨o, ids, lines, r₀, r₁, ho, ⟨hthere, hedited⟩⟩
  · trivial

/-! ## Delivery -/

/-- An order that was read, and whose version was claimed as it was read, is
the row that was read. -/
theorem Found.claimed {o : Uuid} {os : ServiceOrder} {tx tx' : ShopTx} {db : Db}
    (h : Found R o os tx tx' db) {r : OrderRow} (hr : db.orders.find? o = some r)
    (hv : r.version = os.version) : r.entity = os := by
  rcases h.seen with ⟨r', hr', -, heq⟩
  rw [hr] at hr'
  cases hr'
  exact heq hv

theorem ofExcept_ensures {α : Type} (a : Except Failure α) {tx : ShopTx}
    {db : Db} :
    (ofExcept a).Ensures postgres R G (fun x tx' _ => a = .ok x ∧ tx' = tx) tx db := by
  cases a with
  | error e => trivial
  | ok x =>
      intro db' _
      exact ⟨rfl, rfl⟩

theorem assertTransition_ok {a b : OSStatus} {u : Unit} (h : assertTransition a b = .ok u) :
    canTransition a b = true := by
  unfold assertTransition at h
  split at h
  · next hc => exact hc
  · cases h

theorem DeliverOS.execute_ensures (hR : ShopInterference R) (osId : IdText) {db : Db} :
    (DeliverOS.execute osId).Ensures postgres R G
      (fun _ tx db' => ∃ o r₀ r₁ data, osId.column? = some o ∧
        OrderCommit o data (some r₀.version) r₀ r₁ tx db' ∧ data.services = none ∧
        data.items = none ∧ data.status = some .delivered ∧ data.budgetTotal = none ∧
        canTransition r₀.status .delivered = true ∧
        stored tx.writes = [] ∧ (∀ m, lastProcessed tx.writes m = none) ∧
        ∀ i, lastItem tx.writes i = none) {} db := by
  unfold DeliverOS.execute
  refine Ensures.seq hR.toInterference
    (findOSOrThrow_ensures hR osId (by intro o; rfl)) ?_
  rintro os tx₁ d₁ ⟨hc₁, o, ho, hf⟩ -
  refine Ensures.seq hR.toInterference (ofExcept_ensures _) ?_
  rintro u tx₂ d₂ ⟨hlegal, rfl⟩ h₂
  intro t
  have hempty : tx₂.writes = [] := hc₁.start.1
  have hno : ∀ o, lastOrder tx₂.writes o = none := by
    intro o'
    rw [hempty]
    rfl
  have hf₂ := hf.stable hR h₂
  refine ((ServiceOrderRepository.update_ensures hR ho _ (some os.version) hno
    hf₂.there).since hR.toInterference).post ?_
  rintro result tx₃ d₃ ⟨⟨r₀, r₁, wo, hu, -⟩, h₃⟩
  -- the version claimed is the one read, so the row claimed is the row read
  have hversion : r₀.version = os.version := hu.expected os.version rfl
  have hent := (hf₂.stable hR h₃).claimed hu.found hversion
  have hstatus : r₀.status = os.status := by
    rw [← hent]
    rfl
  rcases (hc₁.trans hu.rewrote.continues).start with ⟨hwrites, hclaims⟩
  have hwo := hu.rewrote.writes
  rw [List.nil_append] at hwrites
  refine ⟨o, r₀, r₁, _, ho, ⟨hu.found, ?_, ?_, hu.revision, ?_, ?_⟩, rfl, rfl, rfl, rfl, ?_, ?_, ?_, ?_⟩
  · rw [hwrites]
    exact hwo.last
  · intro o' ho'
    rw [hwrites]
    exact hwo.other ho'
  · rw [hclaims, hversion]
    rfl
  · intro v hv
    exact Option.some.inj hv
  · rw [hstatus]
    exact assertTransition_ok hlegal
  · rw [hwrites]
    exact hwo.stored
  · intro m
    rw [hwrites]
    exact hwo.processed m
  · intro i
    rw [hwrites]
    exact hwo.item i

/-! ## Opening an order -/

theorem CreateServiceOrder.resolveServices_ensures (hR : ShopInterference R)
    (serviceIds : List IdText) {tx : ShopTx} {db : Db} :
    (CreateServiceOrder.resolveServices serviceIds).Ensures postgres R G
      (fun services tx' _ => services = serviceIds.map OSService.mk ∧ Continues tx tx' [] []) tx db := by
  refine Ensures.each hR.toInterference (I := fun done out tx' _ =>
    out = done.map OSService.mk ∧ Continues tx tx' [] []) ?_ ?_ serviceIds ⟨rfl, Continues.refl tx⟩
  · intro done out tx' d d' h _
    exact h
  · rintro done out serviceId tx' d ⟨rfl, hc⟩
    unfold CreateServiceOrder.resolveService
    refine Ensures.seq hR.toInterference (ServiceRepository.findById_ensures serviceId) ?_
    rintro service tx₁ d₁ ⟨hc₁, -⟩ -
    cases service with
    | none => trivial
    | some service =>
        intro db' _
        refine ⟨by simp, ?_⟩
        simpa using hc.trans hc₁

/-- The loop that reserves: every line counts, whatever others commit. -/
theorem CreateServiceOrder.reserveLines_ensures (hR : ShopInterference R) (items : List OSItem)
    {tx : ShopTx} {db : Db} (hempty : tx.writes = []) :
    (each CreateServiceOrder.reserveLine items).Ensures postgres R G
      (fun lines tx' db' => lines = items ∧ ∃ wi, Continues tx tx' wi [] ∧ ItemWrites wi ∧
        Shift wi db' (unitsOf items) (fun _ => 0)) tx db := by
  refine Ensures.each hR.toInterference (I := fun done out tx' db' =>
    out = done ∧ ∃ wi, Continues tx tx' wi [] ∧ ItemWrites wi ∧
      Shift wi db' (unitsOf done) (fun _ => 0)) ?_ ?_ items ?_
  · rintro done out tx' d d' ⟨rfl, wi, hc, hwi, hshift⟩ hR'
    refine ⟨rfl, wi, hc, hwi, hshift.stable ?_⟩
    have hwrites : tx'.writes = wi := by rw [hc.writes, hempty, List.nil_append]
    rw [← hwrites]
    exact hR.rely _ _ _ hR'
  · rintro done out line tx' d ⟨rfl, wi, hc, hwi, hshift⟩
    have hwrites : tx'.writes = wi := by rw [hc.writes, hempty, List.nil_append]
    unfold CreateServiceOrder.reserveLine
    refine Ensures.seq hR.toInterference (ItemRepository.findById_ensures hR line.itemId) ?_
    rintro item tx₁ d₁ ⟨hc₁, -⟩ h₁
    cases item with
    | none => trivial
    | some item =>
        have hwrites₁ : tx₁.writes = wi := by rw [hc₁.writes, hwrites, List.append_nil]
        have hshift₁ : Shift tx₁.writes d₁ (unitsOf out) (fun _ => 0) := by
          rw [hwrites₁]
          refine hshift.stable ?_
          rw [← hwrites]
          exact hR.rely _ _ _ h₁
        refine Ensures.seq hR.toInterference
          (ItemRepository.reserve_ensures hR line.itemId line.quantity hshift₁) ?_
        rintro reserved tx₂ d₂ hres -
        cases reserved with
        | false => trivial
        | true =>
            rcases hres rfl with ⟨i, wi', hi, hmoved⟩
            intro db' h'
            refine ⟨rfl, wi ++ wi', ?_, hwi.append hmoved.writes, ?_⟩
            · simpa using (hc.trans hc₁).trans hmoved.continues
            · have hwrites₂ : tx₂.writes = wi ++ wi' := by
                rw [hmoved.continues.writes, hwrites₁]
              -- the units of this line are added to those of the lines before
              have hfin := hmoved.shift.stable (hR.rely _ _ _ h')
              rw [hwrites₂] at hfin
              refine hfin.congr (fun j => ?_) (fun j => ?_)
              · rw [unitsOf_append, unitsOf_singleton hi]
              · simp [unitsAt]
  · refine ⟨rfl, [], Continues.refl tx, ItemWrites.nil, ?_⟩
    exact (Shift.none (fun _ => rfl) db).congr (fun _ => rfl) (fun _ => rfl)

theorem CreateServiceOrder.execute_ensures (hR : ShopInterference R)
    (input : CreateServiceOrderInput) (traceparent : Option String) {db : Db} :
    (CreateServiceOrder.execute input traceparent).Ensures postgres R G
      (fun _ tx db' => ∃ o row message, OrderOpened R input o row message tx db') {} db := by
  unfold CreateServiceOrder.execute
  refine Ensures.seq hR.toInterference
    (CreateServiceOrder.resolveServices_ensures hR input.services) ?_
  rintro services tx₁ d₁ ⟨rfl, hc₁⟩ -
  have hempty₁ : tx₁.writes = [] := hc₁.start.1
  refine Ensures.seq hR.toInterference
    (CreateServiceOrder.reserveLines_ensures hR input.items hempty₁) ?_
  rintro lines tx₂ d₂ ⟨rfl, wi, hc₂, hwi, hshift₂⟩ -
  have hwrites₂ : tx₂.writes = wi := by rw [hc₂.writes, hempty₁, List.nil_append]
  have hno₂ : ∀ o, lastOrder tx₂.writes o = none := by
    intro o
    rw [hwrites₂]
    exact hwi.order o
  refine Ensures.seq hR.toInterference (ServiceOrderRepository.create_ensures hR _ hno₂) ?_
  rintro order tx₃ d₃ ⟨o, row, wo, hcreated, hoid⟩ h₃
  refine Ensures.seq hR.toInterference (Outbox.add_ensures traceparent _) ?_
  rintro - tx₄ d₄ ⟨o', message, ho', hcarries, hc₄⟩ h₄
  -- the message is about the order just created
  have hoo : o' = o := by
    have heq : order.id.stored? = some o' := ho'
    rw [hoid] at heq
    exact (Option.some.inj heq).symm
  subst hoo
  intro db' h'
  -- the order and its items are locked until the commit
  have hw := hcreated.rewrote
  have hlocked : R tx₃.writes d₃ db' := by
    rw [hc₄.writes] at h'
    exact hR.trans _ _ _ _ h₄ (hR.held _ _ _ _ h')
  have hlocked₂ : R wi d₂ db' := by
    have hlate : R wi d₃ db' := by
      rw [hw.continues.writes, hwrites₂] at hlocked
      exact hR.held _ _ _ _ hlocked
    rw [hwrites₂] at h₃
    exact hR.trans _ _ _ _ h₃ hlate
  have hshift := hshift₂.stable (hR.rely _ _ _ hlocked₂)
  rcases ((hc₁.trans hc₂).trans (hw.continues.trans hc₄)).start with ⟨hwrites, hclaims⟩
  rw [List.nil_append] at hwrites
  have hunits : ∀ i, unitsOf input.items i = lineUnits row.items i := by
    intro i
    exact (lineUnits_of_columns hcreated.items i).symm
  refine ⟨o', row, message, ?_⟩
  constructor
  · rw [hw.held hR hlocked]
    exact hcreated.isNew
  · rw [hwrites]
    simp only [lastOrder, lastOf_append]
    rw [show lastOf (Write.order? o') wo = some row from hw.writes.last]
    rfl
  · intro o'' hne
    rw [hwrites]
    simp only [lastOrder, lastOf_append]
    rw [show lastOf (Write.order? o'') wo = none from hw.writes.other hne,
      show lastOf (Write.order? o'') wi = none from hwi.order o'']
    rfl
  · exact hcreated.status
  · exact hcreated.version
  · exact hcreated.budgetTotal
  · rw [hcreated.services, List.map_map]
    rfl
  · exact hcreated.items
  · exact hcreated.history
  · rw [hwrites]
    refine (hshift.append ?_).congr hunits fun _ => rfl
    intro i
    rw [lastItem, lastOf_append]
    rw [show lastOf (Write.item? i) wo = none from hw.writes.item i]
    rfl
  · rw [hwrites, stored_append, stored_append, hwi.stored, hw.writes.stored]
    rfl
  · rw [← hoid]
    exact hcarries
  · intro m
    rw [hwrites]
    simp only [lastProcessed, lastOf_append]
    rw [show lastOf (Write.processed? m) wo = none from hw.writes.processed m,
      show lastOf (Write.processed? m) wi = none from hwi.processed m]
    rfl
  · exact hclaims
  · refine ((hcreated.customerThere).stable hR.toInterference hlocked).imp ?_
    intro d hd
    rw [Engine.view, applyAll_customers, hwrites₂, hwi.customer] at hd
    exact hd
  · intro s hs
    refine ((hcreated.servicesThere).stable hR.toInterference hlocked).imp ?_
    intro d hd
    have hview := hd s hs
    rw [Engine.view, applyAll_services, hwrites₂, hwi.service] at hview
    exact hview
  · intro x hx
    -- an item whose counter moved is locked; the others were there when stored
    rcases hshift x.itemId with ⟨hlast, -, -⟩ | ⟨itemRow, hitem, -⟩
    · refine ((hcreated.itemsThere).stable hR.toInterference hlocked).imp ?_
      intro d hd
      have hview := hd x hx
      rw [Engine.view, applyAll_items, hwrites₂, hlast] at hview
      exact hview
    · exact Was.now hR.toInterference (by rw [hitem]; rfl)

end Orders

end CarRepairShop
