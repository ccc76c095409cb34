import CarRepairShop.Lib.ReadCommitted

/-! # Specifications that know the time

`Prog.Ensures` lets the clock answer anything. Here it answers the time of the
system, which only goes on, and the committed tables keep an invariant `I` that
speaks of the time: what was stored is never from the future. A unit of work
that reads the clock after the tables learns that its time is not before any
time in them (`Prog.EnsuresAt`).

`Reachable.clocked` is the rule for a system of such units of work. What needs
no clock is proved with `Ensures` and carried over (`EnsuresAt.of_ensures`).
-/

namespace Txn

variable {Db Stmt Write Err Op α β : Type} {Resp : Stmt → Type}

/-- From time `t` and the committed tables `db` to time `t'` and `db'`, while
the writes `ws` were held. -/
structure Later (R : List Write → Db → Db → Prop) (I : ℕ → Db → Prop) (ws : List Write) (t : ℕ)
    (db : Db) (t' : ℕ) (db' : Db) : Prop where
  time : t ≤ t'
  moved : R ws db db'
  holds : I t' db'

section Later

variable {R : List Write → Db → Db → Prop} {I : ℕ → Db → Prop} {ws : List Write}
variable {t t₁ t₂ : ℕ} {db db₁ db₂ : Db}

theorem Later.now (hR : Interference R) (h : I t db) : Later R I ws t db t db :=
  ⟨Nat.le_refl t, hR.refl ws db, h⟩

theorem Later.trans (hR : Interference R) (h : Later R I ws t db t₁ db₁)
    (h' : Later R I ws t₁ db₁ t₂ db₂) : Later R I ws t db t₂ db₂ :=
  ⟨Nat.le_trans h.time h'.time, hR.trans _ _ _ _ h.moved h'.moved, h'.holds⟩

/-- Fewer writes were held as well. -/
theorem Later.held (hR : Interference R) {more : List Write}
    (h : Later R I (ws ++ more) t db t₁ db₁) : Later R I ws t db t₁ db₁ :=
  ⟨h.time, hR.held _ _ _ _ h.moved, h.holds⟩

end Later

namespace Prog

variable (E : Engine Db Stmt Resp Write Err)

/-- `p` meets `Q` when it goes on from `tx` at time `t`, with `db` committed:
whenever it gets to move, the time and the committed tables may have gone on.
`Q` is due at the commit. -/
def EnsuresAt (R : List Write → Db → Db → Prop) (I : ℕ → Db → Prop)
    (Q : α → Tx Stmt Resp Write → ℕ → Db → Prop) :
    Prog Stmt Resp Err α → Tx Stmt Resp Write → ℕ → Db → Prop
  | .pure a, tx, t, db => ∀ t' db', Later R I tx.writes t db t' db' → Q a tx t' db'
  | .throw _, _, _, _ => True
  | .draw k, tx, t, db => ∀ n, EnsuresAt R I Q (k n) tx t db
  | .clock k, tx, t, db =>
      ∀ t' db', Later R I tx.writes t db t' db' → EnsuresAt R I Q (k t') tx t' db'
  | .stmt s _ k, tx, t, db =>
      ∀ t' db', Later R I tx.writes t db t' db' →
        ∀ r ws, E.exec s (E.view tx db') = .ok (r, ws) →
          EnsuresAt R I Q (k r) (tx.record s r ws) t' db'

variable {E} {R : List Write → Db → Db → Prop} {I : ℕ → Db → Prop}
variable {Q Q' : α → Tx Stmt Resp Write → ℕ → Db → Prop}
variable {tx : Tx Stmt Resp Write} {t t' : ℕ} {db db' : Db}

/-- A specification survives the passing of time and what the others do. -/
theorem EnsuresAt.later (hR : Interference R) {p : Prog Stmt Resp Err α}
    (h : p.EnsuresAt E R I Q tx t db) (hl : Later R I tx.writes t db t' db') :
    p.EnsuresAt E R I Q tx t' db' := by
  induction p generalizing tx with
  | pure a => exact fun t'' db'' h' => h t'' db'' (hl.trans hR h')
  | throw e => trivial
  | draw k ih => exact fun n => ih n (h n) hl
  | clock k ih => exact fun t'' db'' h' => h t'' db'' (hl.trans hR h')
  | stmt s refused k ih => exact fun t'' db'' h' => h t'' db'' (hl.trans hR h')

/-- What holds whatever the clock answers. -/
theorem EnsuresAt.of_ensures (hR : Interference R) {P : α → Tx Stmt Resp Write → Db → Prop}
    {p : Prog Stmt Resp Err α} (h : p.Ensures E R (fun _ _ _ => True) P tx db) :
    p.EnsuresAt E R I (fun a tx _ db => P a tx db) tx t db := by
  induction p generalizing tx t db with
  | pure a => exact fun t' db' hl => h db' hl.moved
  | throw e => trivial
  | draw k ih => exact fun n => ih n (h n)
  | clock k ih => exact fun t' db' hl => ih t' ((h t').stable hR.trans hl.moved)
  | stmt s refused k ih =>
      exact fun t' db' hl r ws he => ih r (h db' hl.moved trivial r ws he)

/-- A weaker promise; at the commit the invariant holds. -/
theorem EnsuresAt.post {p : Prog Stmt Resp Err α} (h : p.EnsuresAt E R I Q tx t db)
    (hQ : ∀ a tx t db, Q a tx t db → I t db → Q' a tx t db) : p.EnsuresAt E R I Q' tx t db := by
  induction p generalizing tx t db with
  | pure a => exact fun t' db' hl => hQ _ _ _ _ (h t' db' hl) hl.holds
  | throw e => trivial
  | draw k ih => exact fun n => ih n (h n)
  | clock k ih => exact fun t' db' hl => ih t' (h t' db' hl)
  | stmt s refused k ih => exact fun t' db' hl r ws he => ih r (h t' db' hl r ws he)

/-- Two promises of one program can be made together. -/
theorem EnsuresAt.and {p : Prog Stmt Resp Err α} (h : p.EnsuresAt E R I Q tx t db)
    (h' : p.EnsuresAt E R I Q' tx t db) :
    p.EnsuresAt E R I (fun a tx t db => Q a tx t db ∧ Q' a tx t db) tx t db := by
  induction p generalizing tx t db with
  | pure a => exact fun t' db' hl => ⟨h t' db' hl, h' t' db' hl⟩
  | throw e => trivial
  | draw k ih => exact fun n => ih n (h n) (h' n)
  | clock k ih => exact fun t' db' hl => ih t' (h t' db' hl) (h' t' db' hl)
  | stmt s refused k ih =>
      exact fun t' db' hl r ws he => ih r (h t' db' hl r ws he) (h' t' db' hl r ws he)

/-- The first part has to end in a state from which the second part meets the
specification. -/
theorem EnsuresAt.bind (hR : Interference R) {Q : β → Tx Stmt Resp Write → ℕ → Db → Prop}
    {p : Prog Stmt Resp Err α} {f : α → Prog Stmt Resp Err β} (hI : I t db)
    (h : p.EnsuresAt E R I (fun a tx t db => (f a).EnsuresAt E R I Q tx t db) tx t db) :
    (p >>= f).EnsuresAt E R I Q tx t db := by
  change (p.bind f).EnsuresAt E R I Q tx t db
  induction p generalizing tx t db with
  | pure a => exact h t db (.now hR hI)
  | throw e => trivial
  | draw k ih => exact fun n => ih n hI (h n)
  | clock k ih => exact fun t' db' hl => ih t' hl.holds (h t' db' hl)
  | stmt s refused k ih => exact fun t' db' hl r ws he => ih r hl.holds (h t' db' hl r ws he)

/-- What happened while a unit of work ran. -/
theorem EnsuresAt.since (hR : Interference R) {p : Prog Stmt Resp Err α} (hI : I t db)
    (h : p.EnsuresAt E R I Q tx t db) : p.EnsuresAt E R I
      (fun a tx' t' db' => Q a tx' t' db' ∧ Later R I tx.writes t db t' db') tx t db := by
  suffices hall : ∀ (tx' : Tx Stmt Resp Write) (t' : ℕ) (db' : Db),
      (∃ ws, tx'.writes = tx.writes ++ ws) → Later R I tx.writes t db t' db' →
        p.EnsuresAt E R I Q tx' t' db' → p.EnsuresAt E R I
          (fun a tx'' t'' db'' => Q a tx'' t'' db'' ∧ Later R I tx.writes t db t'' db'') tx' t' db' from
    hall tx t db ⟨[], by simp⟩ (.now hR hI) h
  clear h
  induction p with
  | pure a =>
      intro tx' t' db' ⟨ws, hws⟩ hsince h t'' db'' hl
      refine ⟨h t'' db'' hl, hsince.trans hR ?_⟩
      rw [hws] at hl
      exact hl.held hR
  | throw e => exact fun _ _ _ _ _ _ => trivial
  | draw k ih => exact fun tx' t' db' hws hsince h n => ih n tx' t' db' hws hsince (h n)
  | clock k ih =>
      intro tx' t' db' ⟨ws, hws⟩ hsince h t'' db'' hl
      refine ih t'' tx' t'' db'' ⟨ws, hws⟩ (hsince.trans hR ?_) (h t'' db'' hl)
      rw [hws] at hl
      exact hl.held hR
  | stmt s refused k ih =>
      intro tx' t' db' ⟨ws, hws⟩ hsince h t'' db'' hl r new he
      refine ih r _ t'' db'' ⟨ws ++ new, ?_⟩ (hsince.trans hR ?_) (h t'' db'' hl r new he)
      · rw [Tx.record_writes, hws, List.append_assoc]
      · rw [hws] at hl
        exact hl.held hR

/-- The sequencing rule, with what happened during the first part. -/
theorem EnsuresAt.seq (hR : Interference R) {P : α → Tx Stmt Resp Write → ℕ → Db → Prop}
    {Q : β → Tx Stmt Resp Write → ℕ → Db → Prop} {p : Prog Stmt Resp Err α}
    {f : α → Prog Stmt Resp Err β} (hI : I t db) (hp : p.EnsuresAt E R I P tx t db)
    (hf : ∀ a tx' t' db', P a tx' t' db' → Later R I tx.writes t db t' db' →
      (f a).EnsuresAt E R I Q tx' t' db') : (p >>= f).EnsuresAt E R I Q tx t db :=
  EnsuresAt.bind hR hI ((hp.since hR hI).post fun a tx' t' db' h _ => hf a tx' t' db' h.1 h.2)

end Prog

/-! ## Systems -/

/-- The units of work `program` meet their specifications: time keeps the
invariant, each unit of work that starts meets `Q`, and a commit that satisfies
`Q` keeps the invariant and does to the others no more than they rely on. -/
structure ClockedRelyGuarantee (E : Engine Db Stmt Resp Write Err)
    (program : Op → Prog Stmt Resp Err α) (R : List Write → Db → Db → Prop) (I : ℕ → Db → Prop)
    (Q : Op → α → Tx Stmt Resp Write → ℕ → Db → Prop) : Prop where
  conflicts_comm : ∀ w w', E.conflicts w w' = E.conflicts w' w
  interference : Interference R
  tick : ∀ t t' db, t ≤ t' → I t db → I t' db
  launch : ∀ op t db, I t db → (program op).EnsuresAt E R I (Q op) {} t db
  commit : ∀ op a tx t db, Q op a tx t db → I t db → I t (E.applyAll db tx.writes) ∧
    ∀ ws, (∀ w ∈ tx.writes, ∀ w' ∈ ws, E.conflicts w w' = false) →
      R ws db (E.applyAll db tx.writes)

section Soundness

variable {E : Engine Db Stmt Resp Write Err} {program : Op → Prog Stmt Resp Err α}
variable {G : Guard Db Stmt Resp Write Op} {init s s' : Sys Db Stmt Resp Write Err Op α}
variable {R : List Write → Db → Db → Prop} {I : ℕ → Db → Prop}
variable {Q : Op → α → Tx Stmt Resp Write → ℕ → Db → Prop}

theorem Prog.ensures_nothing {R : List Write → Db → Db → Prop}
    {G : Tx Stmt Resp Write → Stmt → Db → Prop} (p : Prog Stmt Resp Err α)
    (tx : Tx Stmt Resp Write) (db : Db) : p.Ensures E R G (fun _ _ _ => True) tx db := by
  induction p generalizing tx db with
  | pure a => exact fun _ _ => trivial
  | throw e => trivial
  | draw k ih => exact fun n => ih n tx db
  | clock k ih => exact fun n => ih n tx db
  | stmt s refused k ih => exact fun db' _ _ r ws _ => ih r _ db'

/-- No two sessions hold conflicting writes. -/
theorem Reachable.apart (hcomm : ∀ w w', E.conflicts w w' = E.conflicts w' w)
    (hinit : init.sessions = []) (h : Reachable E program G init s) :
    ∀ (i j : ℕ) (t u : Session Stmt Resp Write Err Op α), i ≠ j →
      s.sessions[i]? = some t → s.sessions[j]? = some u →
        ∀ w ∈ t.held, ∀ w' ∈ u.held, E.conflicts w w' = false := by
  have hRG : RelyGuarantee E program G (fun _ _ _ => True) fun _ _ _ _ => True :=
    ⟨hcomm, fun _ _ => trivial, fun _ _ _ _ _ _ => trivial,
      fun op _ db => (program op).ensures_nothing {} db, fun _ _ _ _ _ _ _ => trivial⟩
  exact (h.sessions hRG hinit).apart

/-- The invariant of the system: the tables keep theirs at the time it is, each
session that still runs meets its specification from here, and so did each that
committed. -/
structure ClockedSessions (E : Engine Db Stmt Resp Write Err) (R : List Write → Db → Db → Prop)
    (I : ℕ → Db → Prop) (Q : Op → α → Tx Stmt Resp Write → ℕ → Db → Prop)
    (s : Sys Db Stmt Resp Write Err Op α) : Prop where
  holds : I s.now s.db
  ensures : ∀ (i : ℕ) (op : Op) (p : Prog Stmt Resp Err α) (tx : Tx Stmt Resp Write),
    s.sessions[i]? = some (.running op p tx) → p.EnsuresAt E R I (Q op) tx s.now s.db
  commits : ∀ c ∈ s.log, ∃ t, I t c.before ∧ Q c.op c.result c.tx t c.before

/-- A move of session `i` alone. -/
theorem ClockedSessions.put (h : ClockedSessions E R I Q s) {i : ℕ}
    {u : Session Stmt Resp Write Err Op α}
    (hu : ∀ op p tx, u = .running op p tx → p.EnsuresAt E R I (Q op) tx s.now s.db) :
    ClockedSessions E R I Q (s.put i u) where
  holds := h.holds
  ensures := by
    intro j op p tx hj
    rcases Sys.getElem?_put hj with ⟨-, ht⟩ | ⟨-, hj'⟩
    · exact hu op p tx ht.symm
    · exact h.ensures j op p tx hj'
  commits := h.commits

/-- Every move keeps the invariant. -/
theorem ClockedSessions.move (hRG : ClockedRelyGuarantee E program R I Q)
    (h : ClockedSessions E R I Q s)
    (hapart : ∀ (i j : ℕ) (t u : Session Stmt Resp Write Err Op α), i ≠ j →
      s.sessions[i]? = some t → s.sessions[j]? = some u →
        ∀ w ∈ t.held, ∀ w' ∈ u.held, E.conflicts w w' = false)
    (hm : Move E program G s s') : ClockedSessions E R I Q s' := by
  have hnow : ∀ {ws : List Write}, Later R I ws s.now s.db s.now s.db :=
    .now hRG.interference h.holds
  cases hm with
  | launch op hl =>
      refine ⟨h.holds, fun i op' p tx hi => ?_, h.commits⟩
      rcases getElem?_launch hi with hi | hi
      · exact h.ensures i op' p tx hi
      · cases hi
        exact hRG.launch op s.now s.db h.holds
  | tick d =>
      have hlater : I (s.now + d) s.db := hRG.tick _ _ _ (Nat.le_add_right _ d) h.holds
      refine ⟨hlater, fun i op p tx hi => ?_, h.commits⟩
      exact (h.ensures i op p tx hi).later hRG.interference
        ⟨Nat.le_add_right _ d, hRG.interference.refl _ _, hlater⟩
  | stop i op p tx e hi => exact h.put fun _ _ _ hc => by cases hc
  | draw i op k tx hi =>
      have hput : ClockedSessions E R I Q (s.put i (.running op (k s.nextId) tx)) := by
        refine h.put fun op' p' tx' hc => ?_
        cases hc
        exact h.ensures i op _ tx hi s.nextId
      exact ⟨hput.holds, hput.ensures, hput.commits⟩
  | clock i op k tx hi =>
      refine h.put fun op' p' tx' hc => ?_
      cases hc
      exact h.ensures i op _ tx hi s.now s.db hnow
  | stmt i op q refused k tx r ws hi hg he hb =>
      refine h.put fun op' p' tx' hc => ?_
      cases hc
      exact h.ensures i op _ tx hi s.now s.db hnow r ws he
  | commit i op a tx hi =>
      have hQ : Q op a tx s.now s.db := h.ensures i op _ tx hi s.now s.db hnow
      obtain ⟨hholds, hothers⟩ := hRG.commit op a tx s.now s.db hQ h.holds
      refine ⟨hholds, fun j op' p tx' hj => ?_, fun c hc => ?_⟩
      · rcases Sys.getElem?_put hj with ⟨-, ht⟩ | ⟨hji, hj'⟩
        · cases ht
        · refine (h.ensures j op' p tx' hj').later hRG.interference ⟨Nat.le_refl _, ?_, hholds⟩
          exact hothers tx'.writes (hapart i j _ _ (Ne.symm hji) hi hj')
      · rcases List.mem_append.mp hc with hc | hc
        · exact h.commits c hc
        · obtain rfl := List.mem_singleton.mp hc
          exact ⟨s.now, h.holds, hQ⟩

/-- The run: the invariant holds in every state reached. -/
theorem Reachable.clocked (hRG : ClockedRelyGuarantee E program R I Q)
    (hsessions : init.sessions = []) (hlog : init.log = []) (hI : I init.now init.db)
    (h : Reachable E program G init s) : ClockedSessions E R I Q s := by
  induction h with
  | init =>
      refine ⟨hI, fun i op p tx hi => ?_, fun c hc => ?_⟩
      · simp [hsessions] at hi
      · simp [hlog] at hc
  | step l hs hall hstep ih =>
      exact ih.move hRG (hs.apart hRG.conflicts_comm hsessions) (move_of_step hall hstep)

end Soundness

end Txn
