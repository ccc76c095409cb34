import CarRepairShop.Lib.Transaction

/-! # Total correctness of a unit of work alone

`Prog.Succeeds` is the weakest precondition of a unit of work that runs alone:
from the tables it is given, whatever the identifiers it draws and the time it
reads, no statement is refused, nothing is thrown, and the value and the tables
at the end satisfy `Q`. Only what the transaction sees matters here, not how it
came about, so the rules speak of tables and not of traces.

`Succeeds.run` is the way back: a unit of work that succeeds from the tables a
transaction sees runs to its end from there. `run_keeps` is about any run that
ends: an invariant of the statements is an invariant of the run.

`Prog.Ends` is the same for a unit of work that may also fail: `F` is what is
promised of its error.
-/

namespace Txn.Prog

variable {Db Stmt Write Err α β : Type} {Resp : Stmt → Type}

/-- Alone on the tables `v`, the unit of work ends, and ends in `Q`. -/
def Succeeds (E : Engine Db Stmt Resp Write Err) (Q : α → Db → Prop) :
    Prog Stmt Resp Err α → Db → Prop
  | .pure a, v => Q a v
  | .throw _, _ => False
  | .draw k, v => ∀ n, Succeeds E Q (k n) v
  | .clock k, v => ∀ t, Succeeds E Q (k t) v
  | .stmt s _ k, v => ∃ r ws, E.exec s v = .ok (r, ws) ∧ Succeeds E Q (k r) (E.applyAll v ws)

variable {E : Engine Db Stmt Resp Write Err} {Q Q' : α → Db → Prop}

/-- A weaker promise. -/
theorem Succeeds.mono {p : Prog Stmt Resp Err α} {v : Db} (h : p.Succeeds E Q v)
    (himp : ∀ a v', Q a v' → Q' a v') : p.Succeeds E Q' v := by
  induction p generalizing v with
  | pure a => exact himp a v h
  | throw e => exact h
  | draw k ih =>
      intro n
      exact ih n (h n)
  | clock k ih =>
      intro t
      exact ih t (h t)
  | stmt s refused k ih =>
      rcases h with ⟨r, ws, hexec, hrest⟩
      exact ⟨r, ws, hexec, ih r hrest⟩

/-- The sequencing rule. -/
theorem Succeeds.bind {p : Prog Stmt Resp Err α} {f : α → Prog Stmt Resp Err β}
    {Q : β → Db → Prop} {v : Db} (h : p.Succeeds E (fun a v' => (f a).Succeeds E Q v') v) :
    (p >>= f).Succeeds E Q v := by
  change (p.bind f).Succeeds E Q v
  induction p generalizing v with
  | pure a => exact h
  | throw e => exact h
  | draw k ih =>
      intro n
      exact ih n (h n)
  | clock k ih =>
      intro t
      exact ih t (h t)
  | stmt s refused k ih =>
      rcases h with ⟨r, ws, hexec, hrest⟩
      exact ⟨r, ws, hexec, ih r hrest⟩

/-- The sequencing rule, with what the first part promises. -/
theorem Succeeds.seq {P : α → Db → Prop} {Q : β → Db → Prop} {p : Prog Stmt Resp Err α}
    {f : α → Prog Stmt Resp Err β} {v : Db} (hp : p.Succeeds E P v)
    (hf : ∀ a v', P a v' → (f a).Succeeds E Q v') : (p >>= f).Succeeds E Q v :=
  (hp.mono hf).bind

/-- The first part of a unit of work that succeeds. -/
theorem Succeeds.first {p : Prog Stmt Resp Err α} {f : α → Prog Stmt Resp Err β}
    {Q : β → Db → Prop} {v : Db} (h : (p >>= f).Succeeds E Q v) :
    p.Succeeds E (fun a v' => (f a).Succeeds E Q v') v := by
  change (p.bind f).Succeeds E Q v at h
  induction p generalizing v with
  | pure a => exact h
  | throw e => exact h
  | draw k ih =>
      intro n
      exact ih n (h n)
  | clock k ih =>
      intro t
      exact ih t (h t)
  | stmt s refused k ih =>
      rcases h with ⟨r, ws, hexec, hrest⟩
      exact ⟨r, ws, hexec, ih r hrest⟩

/-- A unit of work that succeeds on what its transaction sees runs to its end. -/
theorem Succeeds.run {p : Prog Stmt Resp Err α} {tx : Tx Stmt Resp Write} {db : Db}
    (h : p.Succeeds E Q (E.view tx db)) (now nextId : ℕ) :
    ∃ fin, p.run E now db nextId tx = .ok fin ∧ Q fin.value (E.view fin.tx db) := by
  induction p generalizing nextId tx with
  | pure a => exact ⟨⟨a, tx, nextId⟩, rfl, h⟩
  | throw e => exact h.elim
  | draw k ih => exact ih nextId (h nextId) (nextId + 1)
  | clock k ih => exact ih now (h now) nextId
  | stmt s refused k ih =>
      rcases h with ⟨r, ws, hexec, hrest⟩
      rw [← E.view_record tx s r ws db] at hrest
      rcases ih r hrest nextId with ⟨fin, hrun, hQ⟩
      refine ⟨fin, ?_, hQ⟩
      rw [Prog.run, hexec]
      exact hrun

/-- What every statement keeps of the tables it sees, a unit of work alone keeps. -/
theorem run_keeps {I : Db → Prop}
    (hI : ∀ s v r ws, E.exec s v = .ok (r, ws) → I v → I (E.applyAll v ws)) {now : ℕ} {db : Db}
    {p : Prog Stmt Resp Err α} {nextId : ℕ} {tx : Tx Stmt Resp Write}
    {fin : Finished Stmt Resp Write α} (h : I (E.view tx db))
    (hrun : p.run E now db nextId tx = .ok fin) : I (E.view fin.tx db) := by
  induction p generalizing nextId tx with
  | pure a =>
      cases hrun
      exact h
  | throw e => cases hrun
  | draw k ih => exact ih nextId h hrun
  | clock k ih => exact ih now h hrun
  | stmt s refused k ih =>
      simp only [run] at hrun
      cases he : E.exec s (E.view tx db) with
      | error e => simp [he] at hrun
      | ok q =>
          rw [he] at hrun
          refine ih q.1 ?_ hrun
          rw [E.view_record]
          exact hI s _ q.1 q.2 he h

/-! ## Values and errors -/

/-- Alone on the tables `v`, the unit of work returns a value in `Q`, or throws an error
in `F`. -/
def Ends (E : Engine Db Stmt Resp Write Err) (Q : α → Db → Prop) (F : Err → Prop) :
    Prog Stmt Resp Err α → Db → Prop
  | .pure a, v => Q a v
  | .throw e, _ => F e
  | .draw k, v => ∀ n, Ends E Q F (k n) v
  | .clock k, v => ∀ t, Ends E Q F (k t) v
  | .stmt s refused k, v =>
      match E.exec s v with
      | .ok (r, ws) => Ends E Q F (k r) (E.applyAll v ws)
      | .error e => F (refused e)

variable {F F' : Err → Prop}

theorem Ends.mono {p : Prog Stmt Resp Err α} {v : Db} (h : p.Ends E Q F v)
    (hQ : ∀ a v', Q a v' → Q' a v') (hF : ∀ e, F e → F' e) : p.Ends E Q' F' v := by
  induction p generalizing v with
  | pure a => exact hQ a v h
  | throw e => exact hF e h
  | draw k ih =>
      intro n
      exact ih n (h n)
  | clock k ih =>
      intro t
      exact ih t (h t)
  | stmt s refused k ih =>
      unfold Ends at h ⊢
      split at h
      · next r ws _ => exact ih r h
      · exact hF _ h

/-- The sequencing rule. -/
theorem Ends.bind {p : Prog Stmt Resp Err α} {f : α → Prog Stmt Resp Err β}
    {Q : β → Db → Prop} {v : Db} (h : p.Ends E (fun a v' => (f a).Ends E Q F v') F v) :
    (p >>= f).Ends E Q F v := by
  change (p.bind f).Ends E Q F v
  induction p generalizing v with
  | pure a => exact h
  | throw e => exact h
  | draw k ih =>
      intro n
      exact ih n (h n)
  | clock k ih =>
      intro t
      exact ih t (h t)
  | stmt s refused k ih =>
      unfold Ends at h
      unfold Prog.bind Ends
      split at h
      · next r ws _ => exact ih r h
      · exact h

/-- The sequencing rule, with what the first part promises. -/
theorem Ends.seq {P : α → Db → Prop} {Q : β → Db → Prop} {p : Prog Stmt Resp Err α}
    {f : α → Prog Stmt Resp Err β} {v : Db} (hp : p.Ends E P F v)
    (hf : ∀ a v', P a v' → (f a).Ends E Q F v') : (p >>= f).Ends E Q F v :=
  (hp.mono hf fun _ h => h).bind

/-- The loop rule: `I` speaks of the elements done and their results. -/
theorem Ends.each {f : α → Prog Stmt Resp Err β} {I : List α → List β → Db → Prop}
    {xs : List α} {v : Db} (h : I [] [] v)
    (hstep : ∀ done x rest out v', xs = done ++ x :: rest → I done out v' →
      (f x).Ends E (fun y v'' => I (done ++ [x]) (out ++ [y]) v'') F v') :
    (Prog.each f xs).Ends E (fun ys v' => I xs ys v') F v := by
  -- the elements done so far and the ones left make up the list
  suffices hall : ∀ (rest done : List α) (out : List β) (v' : Db), xs = done ++ rest →
      I done out v' →
        (Prog.each f rest).Ends E (fun ys v'' => I (done ++ rest) (out ++ ys) v'') F v' by
    have hrun := hall xs [] [] v rfl h
    simpa using hrun
  intro rest
  induction rest with
  | nil =>
      intro done out v' _ hI
      simpa [Prog.each, Ends] using hI
  | cons x rest ih =>
      intro done out v' hxs hI
      refine (hstep done x rest out v' hxs hI).seq ?_
      intro y v'' hy
      have hxs' : xs = (done ++ [x]) ++ rest := by rw [hxs, List.append_assoc, List.singleton_append]
      refine (ih (done ++ [x]) (out ++ [y]) v'' hxs' hy).seq ?_
      intro ys v₃ hys
      simpa [Ends] using hys

/-- A unit of work that succeeds is one that ends without an error. -/
theorem succeeds_iff_ends {p : Prog Stmt Resp Err α} {v : Db} :
    p.Succeeds E Q v ↔ p.Ends E Q (fun _ => False) v := by
  induction p generalizing v with
  | pure a => exact Iff.rfl
  | throw e => exact Iff.rfl
  | draw k ih => exact forall_congr' fun n => ih n
  | clock k ih => exact forall_congr' fun t => ih t
  | stmt s refused k ih =>
      unfold Succeeds Ends
      cases hexec : E.exec s v with
      | error e => simp
      | ok q =>
          obtain ⟨r, ws⟩ := q
          constructor
          · rintro ⟨r', ws', heq, hrest⟩
            cases heq
            exact (ih r).mp hrest
          · intro hrest
            exact ⟨r, ws, rfl, (ih r).mpr hrest⟩

/-- The loop rule for a loop that succeeds. -/
theorem Succeeds.each {f : α → Prog Stmt Resp Err β} {I : List α → List β → Db → Prop}
    {xs : List α} {v : Db} (h : I [] [] v)
    (hstep : ∀ done x rest out v', xs = done ++ x :: rest → I done out v' →
      (f x).Succeeds E (fun y v'' => I (done ++ [x]) (out ++ [y]) v'') v') :
    (Prog.each f xs).Succeeds E (fun ys v' => I xs ys v') v := by
  refine succeeds_iff_ends.mpr (Ends.each h ?_)
  intro done x rest out v' hxs hI
  exact succeeds_iff_ends.mp (hstep done x rest out v' hxs hI)

theorem Succeeds.ends {p : Prog Stmt Resp Err α} {v : Db} (h : p.Succeeds E Q v) :
    p.Ends E Q F v :=
  (succeeds_iff_ends.mp h).mono (fun _ _ hQ => hQ) fun _ hF => hF.elim

/-- How a unit of work ends, alone on what its transaction sees. -/
theorem Ends.run {p : Prog Stmt Resp Err α} {tx : Tx Stmt Resp Write} {db : Db}
    (h : p.Ends E Q F (E.view tx db)) (now nextId : ℕ) :
    (∃ fin, p.run E now db nextId tx = .ok fin ∧ Q fin.value (E.view fin.tx db)) ∨
      ∃ e, p.run E now db nextId tx = .error e ∧ F e := by
  induction p generalizing nextId tx with
  | pure a => exact .inl ⟨⟨a, tx, nextId⟩, rfl, h⟩
  | throw e => exact .inr ⟨e, rfl, h⟩
  | draw k ih => exact ih nextId (h nextId) (nextId + 1)
  | clock k ih => exact ih now (h now) nextId
  | stmt s refused k ih =>
      unfold Ends at h
      unfold Prog.run
      split at h
      · next r ws hexec =>
          rw [← E.view_record tx s r ws db] at h
          rw [hexec]
          exact ih r h nextId
      · next e hexec =>
          rw [hexec]
          exact .inr ⟨refused e, rfl, h⟩

/-! ## Identifiers -/

/-- A sequence runs its second part where the first one left off. -/
theorem run_bind {p : Prog Stmt Resp Err α} {f : α → Prog Stmt Resp Err β} {now : ℕ} {db : Db}
    {nextId : ℕ} {tx : Tx Stmt Resp Write} :
    (p >>= f).run E now db nextId tx = match p.run E now db nextId tx with
      | .ok fin => (f fin.value).run E now db fin.nextId fin.tx
      | .error e => .error e := by
  change (p.bind f).run E now db nextId tx = _
  induction p generalizing nextId tx with
  | pure a => rfl
  | throw e => rfl
  | draw k ih => exact ih nextId
  | clock k ih => exact ih now
  | stmt s refused k ih =>
      simp only [Prog.bind, Prog.run]
      cases E.exec s (E.view tx db) with
      | error e => rfl
      | ok q => exact ih q.1

/-- Identifiers are drawn upwards. -/
theorem le_nextId_of_run {p : Prog Stmt Resp Err α} {now : ℕ} {db : Db} {nextId : ℕ}
    {tx : Tx Stmt Resp Write} {fin : Finished Stmt Resp Write α}
    (h : p.run E now db nextId tx = .ok fin) : nextId ≤ fin.nextId := by
  induction p generalizing nextId tx with
  | pure a =>
      cases h
      exact Nat.le_refl nextId
  | throw e => cases h
  | draw k ih => exact Nat.le_trans (Nat.le_succ nextId) (ih nextId h)
  | clock k ih => exact ih now h
  | stmt s refused k ih =>
      unfold Prog.run at h
      cases hexec : E.exec s (E.view tx db) with
      | error e =>
          rw [hexec] at h
          cases h
      | ok q =>
          rw [hexec] at h
          exact ih q.1 h

/-! ## What is left of a run -/

/-- The value, the writes and the identifiers of a run that ended. -/
def leaves (fin : Finished Stmt Resp Write α) : α × List Write × ℕ :=
  (fin.value, fin.tx.writes, fin.nextId)

/-- What a run leaves depends on what its transaction wrote, not on what it asked. -/
theorem run_leaves {p : Prog Stmt Resp Err α} {now : ℕ} {db : Db} {nextId : ℕ}
    {tx tx' : Tx Stmt Resp Write} (h : tx.writes = tx'.writes) :
    (p.run E now db nextId tx).map leaves
      = (p.run E now db nextId tx').map leaves := by
  have hview : E.view tx db = E.view tx' db := by
    unfold Engine.view
    rw [h]
  induction p generalizing nextId tx tx' with
  | pure a => simp [Prog.run, Except.map, leaves, h]
  | throw e => rfl
  | draw k ih => exact ih nextId h hview
  | clock k ih => exact ih now h hview
  | stmt s refused k ih =>
      simp only [Prog.run, hview]
      cases E.exec s (E.view tx' db) with
      | error e => rfl
      | ok q =>
          refine ih q.1 (by rw [Tx.record_writes, Tx.record_writes, h]) ?_
          rw [E.view_record, E.view_record, hview]

end Txn.Prog
