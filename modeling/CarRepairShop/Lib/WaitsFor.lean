import Mathlib.Logic.Hydra
import Mathlib.Order.WellFounded
import CarRepairShop.Lib.ReadCommitted

/-! # Who waits for whom

A session whose next statement would write a row that another open session
holds waits until that one ends. This module says what follows for any units of
work:

* a state in which sessions run and none can move has a cycle of sessions, each
  waiting for the next (`exists_cycle_of_stuck`);
* sessions that are left to themselves, in any order, come to such a state or to
  one in which nothing runs (`exists_run_to_stuck`);
* what a unit of work holds when it issues each of its statements
  (`Prog.Follows`), proved of the program, holds of every session in every
  reachable state (`Reachable.follows`).
-/

namespace Txn

variable {Db Stmt Write Err Op α β : Type} {Resp : Stmt → Type}

/-! ## What is held at each statement -/

namespace Prog

variable (E : Engine Db Stmt Resp Write Err)

/-- Every statement `s` is issued while holding writes `ws` with `P ws s`, and
the unit of work returns `a` while holding `ws` with `Q a ws`, whatever tables
the statements see. -/
def Follows (P : List Write → Stmt → Prop) (Q : α → List Write → Prop) :
    Prog Stmt Resp Err α → List Write → Prop
  | .pure a, ws => Q a ws
  | .throw _, _ => True
  | .draw k, ws => ∀ n, Follows P Q (k n) ws
  | .clock k, ws => ∀ n, Follows P Q (k n) ws
  | .stmt s _ k, ws =>
      P ws s ∧ ∀ v r new, E.exec s v = .ok (r, new) → Follows P Q (k r) (ws ++ new)

variable {E} {P P' : List Write → Stmt → Prop} {Q Q' : α → List Write → Prop}

theorem Follows.mono (hP : ∀ ws s, P ws s → P' ws s) (hQ : ∀ a ws, Q a ws → Q' a ws)
    {p : Prog Stmt Resp Err α} {ws : List Write} (h : p.Follows E P Q ws) :
    p.Follows E P' Q' ws := by
  induction p generalizing ws with
  | pure a => exact hQ a ws h
  | throw e => trivial
  | draw k ih => exact fun n => ih n (h n)
  | clock k ih => exact fun n => ih n (h n)
  | stmt s refused k ih => exact ⟨hP ws s h.1, fun v r new he => ih r (h.2 v r new he)⟩

theorem Follows.bind {Q : β → List Write → Prop} {p : Prog Stmt Resp Err α}
    {f : α → Prog Stmt Resp Err β} {ws : List Write}
    (h : p.Follows E P (fun a ws' => (f a).Follows E P Q ws') ws) :
    (p >>= f).Follows E P Q ws := by
  change (p.bind f).Follows E P Q ws
  induction p generalizing ws with
  | pure a => exact h
  | throw e => trivial
  | draw k ih => exact fun n => ih n (h n)
  | clock k ih => exact fun n => ih n (h n)
  | stmt s refused k ih => exact ⟨h.1, fun v r new he => ih r (h.2 v r new he)⟩

/-- The sequencing rule. -/
theorem Follows.seq {M : α → List Write → Prop} {Q : β → List Write → Prop}
    {p : Prog Stmt Resp Err α} {f : α → Prog Stmt Resp Err β} {ws : List Write}
    (h : p.Follows E P M ws) (hf : ∀ a ws', M a ws' → (f a).Follows E P Q ws') :
    (p >>= f).Follows E P Q ws :=
  Follows.bind (h.mono (fun _ _ h => h) hf)

/-- The loop rule: `I` is what is held between the rounds. -/
theorem Follows.each {I : List Write → Prop} {f : α → Prog Stmt Resp Err β}
    (hstep : ∀ x ws, I ws → (f x).Follows E P (fun _ ws' => I ws') ws) (xs : List α)
    {ws : List Write} (h : I ws) : (Prog.each f xs).Follows E P (fun _ ws' => I ws') ws := by
  induction xs generalizing ws with
  | nil => exact h
  | cons x xs ih =>
      refine (hstep x ws h).seq fun y ws₁ h₁ => ?_
      exact (ih h₁).seq fun ys ws₂ h₂ => h₂

/-- A unit of work that only reads holds at its end what it held at its start. -/
theorem Issues.follows {K : Stmt → Prop} (hP : ∀ ws s, K s → P ws s)
    (hreads : ∀ s v r new, K s → E.exec s v = .ok (r, new) → new = [])
    {p : Prog Stmt Resp Err α} (h : p.Issues K) (ws : List Write) :
    p.Follows E P (fun _ ws' => ws' = ws) ws := by
  induction p with
  | pure a => exact rfl
  | throw e => trivial
  | draw k ih => exact fun n => ih n (h n)
  | clock k ih => exact fun n => ih n (h n)
  | stmt s refused k ih =>
      refine ⟨hP ws s h.1, fun v r new he => ?_⟩
      rw [hreads s v r new h.1 he, List.append_nil]
      exact ih r (h.2 r)

end Prog

section Reachable

variable {E : Engine Db Stmt Resp Write Err} {program : Op → Prog Stmt Resp Err α}
variable {G : Guard Db Stmt Resp Write Op} {init s s' : Sys Db Stmt Resp Write Err Op α}

/-- What a unit of work does from its start, every session goes on doing. -/
theorem Reachable.follows {P : Op → List Write → Stmt → Prop}
    {Q : Op → α → List Write → Prop} (hinit : init.sessions = [])
    (hprog : ∀ op, (program op).Follows E (P op) (Q op) [])
    (h : Reachable E program G init s) :
    ∀ (i : ℕ) (op : Op) (p : Prog Stmt Resp Err α) (tx : Tx Stmt Resp Write),
      s.sessions[i]? = some (.running op p tx) → p.Follows E (P op) (Q op) tx.writes := by
  induction h with
  | init =>
      intro i op p tx hi
      simp [hinit] at hi
  | @step s₁ s₂ l _ hall hstep ih =>
      have hset : ∀ (i : ℕ) (t : Session Stmt Resp Write Err Op α),
          (∀ op p tx, t = .running op p tx → p.Follows E (P op) (Q op) tx.writes) →
          ∀ (j : ℕ) (op : Op) (p : Prog Stmt Resp Err α) (tx : Tx Stmt Resp Write),
            (s₁.put i t).sessions[j]? = some (.running op p tx) →
              p.Follows E (P op) (Q op) tx.writes := by
        intro i t ht j op p tx hj
        rcases Sys.getElem?_put hj with ⟨-, heq⟩ | ⟨-, hj'⟩
        · exact ht op p tx heq.symm
        · exact ih j op p tx hj'
      cases move_of_step hall hstep with
      | launch op hl =>
          intro i op' p tx hi
          rcases getElem?_launch hi with hi | hi
          · exact ih i op' p tx hi
          · cases hi
            exact hprog op
      | tick d => exact ih
      | stop i op p tx e hi => exact hset i _ fun _ _ _ hc => by cases hc
      | commit i op a tx hi => exact hset i _ fun _ _ _ hc => by cases hc
      | draw i op k tx hi =>
          refine hset i _ fun op' p' tx' hc => ?_
          cases hc
          exact ih i op _ tx hi _
      | clock i op k tx hi =>
          refine hset i _ fun op' p' tx' hc => ?_
          cases hc
          exact ih i op _ tx hi _
      | stmt i op q refused k tx r ws hi hg he hb =>
          refine hset i _ fun op' p' tx' hc => ?_
          cases hc
          exact (ih i op _ tx hi).2 _ r ws he

end Reachable

/-! ## Waiting -/

namespace Sys

variable (E : Engine Db Stmt Resp Write Err) (program : Op → Prog Stmt Resp Err α)

/-- Session `i` is about to issue statement `q`, which would make the writes
`ws`, while it holds those of `tx`. -/
def Requests (s : Sys Db Stmt Resp Write Err Op α) (i : ℕ) (op : Op) (tx : Tx Stmt Resp Write)
    (q : Stmt) (ws : List Write) : Prop :=
  ∃ refused k r, s.sessions[i]? = some (.running op (.stmt q refused k) tx) ∧
    E.exec q (E.view tx s.db) = .ok (r, ws)

/-- Session `i` waits for session `j`: its next statement would make a write
that conflicts with one that `j` holds. -/
def WaitsFor (s : Sys Db Stmt Resp Write Err Op α) (i j : ℕ) : Prop :=
  ∃ op tx q ws, s.Requests E i op tx q ws ∧ j ≠ i ∧ ∃ u, s.sessions[j]? = some u ∧
    ∃ w ∈ u.held, ∃ w' ∈ ws, E.conflicts w w' = true

/-- No session can move. -/
def Stuck (s : Sys Db Stmt Resp Write Err Op α) : Prop :=
  ∀ i, s.step E program (.advance i) = none

/-- Nothing runs. -/
def Idle (s : Sys Db Stmt Resp Write Err Op α) : Prop :=
  ∀ (i : ℕ) (op : Op) (p : Prog Stmt Resp Err α) (tx : Tx Stmt Resp Write),
    s.sessions[i]? ≠ some (.running op p tx)

variable {E program} {s : Sys Db Stmt Resp Write Err Op α}

/-- A session that runs can move unless it waits for another. -/
theorem exists_waitsFor {i : ℕ} {op : Op} {p : Prog Stmt Resp Err α} {tx : Tx Stmt Resp Write}
    (hi : s.sessions[i]? = some (.running op p tx)) (hstuck : s.step E program (.advance i) = none) :
    ∃ j, s.WaitsFor E i j := by
  simp only [Sys.step, hi] at hstuck
  cases p with
  | pure a => cases hstuck
  | throw e => cases hstuck
  | draw k => cases hstuck
  | clock k => cases hstuck
  | stmt q refused k =>
      simp only [Sys.advance] at hstuck
      split at hstuck
      · cases hstuck
      · next r ws he =>
        split at hstuck
        · next hb =>
          simp only [Sys.blocked, List.any_eq_true, Bool.and_eq_true, bne_iff_ne, ne_eq] at hb
          rcases hb with ⟨⟨u, j⟩, hmem, hji, w, hw, w', hw', hc⟩
          have hj : s.sessions[j]? = some u := List.mk_mem_zipIdx_iff_getElem?.mp hmem
          exact ⟨j, op, tx, q, ws, ⟨refused, k, r, hi, he⟩, hji, u, hj, w, hw, w', hw', hc⟩
        · cases hstuck

/-- Whoever is waited for runs. -/
theorem WaitsFor.running {i j : ℕ} (h : s.WaitsFor E i j) :
    ∃ op p tx, s.sessions[j]? = some (.running op p tx) := by
  rcases h with ⟨-, -, -, -, -, -, u, hj, w, hw, -⟩
  cases u with
  | running op p tx => exact ⟨op, p, tx, hj⟩
  | committed op a => cases hw
  | aborted op e => cases hw

end Sys

/-- A relation on a finite set in which every element has a successor in the
set has a cycle. -/
theorem exists_cycle {n : ℕ} {r : ℕ → ℕ → Prop} {A : Set ℕ} (hA : ∀ i ∈ A, i < n)
    (hne : A.Nonempty) (hsucc : ∀ i ∈ A, ∃ j ∈ A, r i j) : ∃ i, Relation.TransGen r i i := by
  by_contra hno
  let q : Fin n → Fin n → Prop := fun a b => Relation.TransGen r b a
  have hirrefl : Std.Irrefl q := ⟨fun a ha => hno ⟨a, ha⟩⟩
  have htrans : IsTrans (Fin n) q := ⟨fun a b c hab hbc => hbc.trans hab⟩
  -- without a cycle, a set of finitely many has an element without a successor
  have hwf : WellFounded q := Finite.wellFounded_of_trans_of_irrefl q
  rcases hne with ⟨i, hi⟩
  have hmin := hwf.has_min {a : Fin n | (a : ℕ) ∈ A} ⟨⟨i, hA i hi⟩, hi⟩
  rcases hmin with ⟨a, ha, hlast⟩
  rcases hsucc a ha with ⟨j, hj, hr⟩
  exact hlast ⟨j, hA j hj⟩ hj (.single hr)

/-- A deadlock is a cycle of sessions, each waiting for the next. -/
theorem exists_cycle_of_stuck {E : Engine Db Stmt Resp Write Err}
    {program : Op → Prog Stmt Resp Err α} {s : Sys Db Stmt Resp Write Err Op α}
    (hstuck : s.Stuck E program) (hbusy : ¬ s.Idle) :
    ∃ i, Relation.TransGen (s.WaitsFor E) i i := by
  simp only [Sys.Idle, not_forall, not_not] at hbusy
  rcases hbusy with ⟨i, op, p, tx, hi⟩
  refine exists_cycle (n := s.sessions.length)
    (A := {i | ∃ op p tx, s.sessions[i]? = some (.running op p tx)}) ?_ ⟨i, op, p, tx, hi⟩ ?_
  · rintro j ⟨op, p, tx, hj⟩
    exact (List.getElem?_eq_some_iff.mp hj).1
  · rintro j ⟨op, p, tx, hj⟩
    rcases Sys.exists_waitsFor hj (hstuck j) with ⟨k, hk⟩
    exact ⟨k, hk.running, hk⟩

/-! ### Cycles -/

/-- `j` lies on a way from `i` back to `i`. -/
structure OnCycle {γ : Type} (r : γ → γ → Prop) (i j : γ) : Prop where
  there : Relation.ReflTransGen r i j
  back : Relation.ReflTransGen r j i

section Cycles

variable {γ : Type} {r : γ → γ → Prop} {i j k : γ}

theorem OnCycle.start (i : γ) : OnCycle r i i := ⟨.refl, .refl⟩

/-- The way back is a way of elements of the cycle. -/
theorem OnCycle.of_edge (h : OnCycle r i k) (hr : r j k) (hj : Relation.ReflTransGen r i j) :
    OnCycle r i j := ⟨hj, h.back.head hr⟩

theorem OnCycle.pred (hcycle : Relation.TransGen r i i) (h : OnCycle r i j) :
    ∃ k, r k j ∧ OnCycle r i k := by
  rcases Relation.TransGen.tail'_iff.mp (hcycle.trans_left h.there) with ⟨k, hk, hr⟩
  exact ⟨k, hr, h.of_edge hr hk⟩

theorem OnCycle.succ (hcycle : Relation.TransGen r i i) (h : OnCycle r i j) :
    ∃ k, r j k ∧ OnCycle r i k := by
  rcases Relation.TransGen.head'_iff.mp (Relation.TransGen.trans_right h.back hcycle) with ⟨k, hr, hk⟩
  exact ⟨k, hr, h.there.tail hr, hk⟩

/-- A property of the edges of a cycle holds all the way between its elements. -/
theorem OnCycle.path {r' : γ → γ → Prop}
    (hedge : ∀ a b, OnCycle r i a → OnCycle r i b → r a b → r' a b) (hj : OnCycle r i j)
    (hk : OnCycle r i k) : Relation.ReflTransGen r' j k := by
  have hway : ∀ l, Relation.ReflTransGen r j l → OnCycle r i l → Relation.ReflTransGen r' j l := by
    intro l hl
    induction hl with
    | refl => exact fun _ => .refl
    | @tail a b ha hr ih =>
        intro hb
        have hon := hb.of_edge hr (hj.there.trans ha)
        exact (ih hon).tail (hedge a b hon hb hr)
  exact hway k (hj.back.trans hk.there) hk

/-- Along a cycle no measure grows all the time. -/
theorem exists_descent_of_cycle (hcycle : Relation.TransGen r i i) (rank : γ → ℕ) :
    ∃ j k, r j k ∧ OnCycle r i j ∧ OnCycle r i k ∧ rank k ≤ rank j := by
  by_contra hno
  have hgrows : ∀ a b, r a b → OnCycle r i a → OnCycle r i b → rank a < rank b := by
    intro a b hr ha hb
    by_contra hle
    exact hno ⟨a, b, hr, ha, hb, Nat.le_of_not_lt hle⟩
  have hway : ∀ l, Relation.TransGen r i l → OnCycle r i l → rank i < rank l := by
    intro l hl
    induction hl with
    | single hr => exact hgrows _ _ hr (.start i)
    | tail ha hr ih =>
        intro hb
        have hon := hb.of_edge hr ha.to_reflTransGen
        exact (ih hon).trans (hgrows _ _ hr hon hb)
  exact lt_irrefl _ (hway i hcycle (.start i))

end Cycles

/-! ## Left to themselves -/

/-- `p'` is what is left of `p` after one move. -/
inductive Prog.Next : Prog Stmt Resp Err α → Prog Stmt Resp Err α → Prop where
  | draw (k : ℕ → Prog Stmt Resp Err α) (n : ℕ) : Next (k n) (.draw k)
  | clock (k : ℕ → Prog Stmt Resp Err α) (n : ℕ) : Next (k n) (.clock k)
  | stmt (s : Stmt) (refused : Err → Err) (k : Resp s → Prog Stmt Resp Err α) (r : Resp s) :
      Next (k r) (.stmt s refused k)

theorem Prog.next_wellFounded :
    WellFounded (Prog.Next : Prog Stmt Resp Err α → Prog Stmt Resp Err α → Prop) := by
  refine ⟨fun p => ?_⟩
  induction p with
  | pure a => exact ⟨_, fun q hq => by cases hq⟩
  | throw e => exact ⟨_, fun q hq => by cases hq⟩
  | draw k ih =>
      refine ⟨_, fun q hq => ?_⟩
      cases hq with
      | draw _ n => exact ih n
  | clock k ih =>
      refine ⟨_, fun q hq => ?_⟩
      cases hq with
      | clock _ n => exact ih n
  | stmt s refused k ih =>
      refine ⟨_, fun q hq => ?_⟩
      cases hq with
      | stmt _ _ _ r => exact ih r

/-- What a session still has to do. -/
def Session.remaining? : Session Stmt Resp Write Err Op α → Option (Prog Stmt Resp Err α)
  | .running _ p _ => some p
  | _ => none

/-- What all sessions still have to do. -/
def Sys.remaining (s : Sys Db Stmt Resp Write Err Op α) : Multiset (Prog Stmt Resp Err α) :=
  (s.sessions.filterMap Session.remaining? : List (Prog Stmt Resp Err α))

/-- Replacing a value of a list takes out what it counts for and puts in what
the new one does. -/
theorem filterMap_set_exchange {γ δ : Type} {f : γ → Option δ} {xs : List γ} {i : ℕ} {x y : γ}
    {z : δ} (hi : xs[i]? = some x) (hx : f x = some z) :
    ((xs.set i y).filterMap f ++ [z]).Perm (xs.filterMap f ++ (f y).toList) := by
  induction xs generalizing i with
  | nil => cases hi
  | cons w ws ih =>
      cases i with
      | zero =>
          have hw : w = x := by simpa using hi
          rw [List.set_cons_zero, hw, List.filterMap_cons, List.filterMap_cons, hx]
          cases f y with
          | none =>
              rw [Option.toList_none, List.append_nil]
              exact List.perm_append_singleton z _
          | some v =>
              have hlast := (List.perm_append_singleton v (ws.filterMap f)).symm
              exact (List.perm_append_singleton z _).trans (hlast.cons z)
      | succ i =>
          have hrest := ih (by simpa using hi)
          rw [List.set_cons_succ, List.filterMap_cons, List.filterMap_cons]
          cases f w with
          | none => exact hrest
          | some v => exact hrest.cons v

/-- A session that moves has less to do, and the others as much as before. -/
theorem remaining_of_advance {E : Engine Db Stmt Resp Write Err}
    {program : Op → Prog Stmt Resp Err α} {s s' : Sys Db Stmt Resp Write Err Op α} {i : ℕ}
    (h : s.step E program (.advance i) = some s') :
    Relation.CutExpand Prog.Next s'.remaining s.remaining := by
  have hset : ∀ {op : Op} {p : Prog Stmt Resp Err α} {tx : Tx Stmt Resp Write}
      {t : Session Stmt Resp Write Err Op α}, s.sessions[i]? = some (.running op p tx) →
      (∀ p', t.remaining? = some p' → Prog.Next p' p) →
      Relation.CutExpand Prog.Next
        ((s.sessions.set i t).filterMap Session.remaining? : Multiset (Prog Stmt Resp Err α))
        s.remaining := by
    intro op p tx t hi hnext
    have hperm := filterMap_set_exchange (f := Session.remaining?) (y := t) hi rfl
    refine ⟨(t.remaining?.toList : List (Prog Stmt Resp Err α)), p, ?_, ?_⟩
    · intro p' hp'
      exact hnext p' (by simpa using hp')
    · exact Multiset.coe_eq_coe.mpr hperm
  simp only [Sys.step] at h
  split at h
  · next op p tx hi =>
    cases p with
    | pure a =>
        cases h
        exact hset hi fun p' hp' => by cases hp'
    | throw e =>
        cases h
        exact hset hi fun p' hp' => by cases hp'
    | draw k =>
        cases h
        refine hset hi fun p' hp' => ?_
        cases hp'
        exact .draw k _
    | clock k =>
        cases h
        refine hset hi fun p' hp' => ?_
        cases hp'
        exact .clock k _
    | stmt q refused k =>
        simp only [Sys.advance] at h
        split at h
        · cases h
          exact hset hi fun p' hp' => by cases hp'
        · split at h
          · cases h
          · cases h
            refine hset hi fun p' hp' => ?_
            cases hp'
            exact .stmt q refused k _
  · cases h

/-- A guard that lets every statement happen lets every session go on. -/
theorem allowed_advance {E : Engine Db Stmt Resp Write Err} {G : Guard Db Stmt Resp Write Op}
    (hG : ∀ op tx q v, G.stmt op tx q v = true) (s : Sys Db Stmt Resp Write Err Op α) (i : ℕ) :
    s.allowed E G (.advance i) = true := by
  simp only [Sys.allowed]
  split
  · exact hG _ _ _ _
  · rfl

/-- Sessions that go on as long as any of them can, in whatever order, come to
an end. -/
theorem exists_run_to_stuck (E : Engine Db Stmt Resp Write Err)
    (program : Op → Prog Stmt Resp Err α) {G : Guard Db Stmt Resp Write Op}
    (hG : ∀ op tx q v, G.stmt op tx q v = true) (s : Sys Db Stmt Resp Write Err Op α) :
    ∃ ls s', (∀ l ∈ ls, ∃ i, l = Label.advance i) ∧ s.play E program G ls = some s' ∧
      s'.Stuck E program := by
  have hwf : WellFounded fun s' s : Sys Db Stmt Resp Write Err Op α =>
      Relation.CutExpand Prog.Next s'.remaining s.remaining :=
    InvImage.wf Sys.remaining Prog.next_wellFounded.cutExpand
  induction s using hwf.induction with
  | _ s ih =>
      by_cases hstuck : s.Stuck E program
      · exact ⟨[], s, by simp, rfl, hstuck⟩
      · simp only [Sys.Stuck, not_forall] at hstuck
        rcases hstuck with ⟨i, hi⟩
        rcases Option.ne_none_iff_exists'.mp hi with ⟨s₁, hs₁⟩
        rcases ih s₁ (remaining_of_advance hs₁) with ⟨ls, s', hls, hplay, hend⟩
        refine ⟨.advance i :: ls, s', ?_, ?_, hend⟩
        · intro l hl
          rcases List.mem_cons.mp hl with rfl | hl
          · exact ⟨i, rfl⟩
          · exact hls l hl
        · simp only [Sys.play, allowed_advance hG, if_true, hs₁, Option.bind_some]
          exact hplay

end Txn
