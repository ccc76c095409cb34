import CarRepairShop.History
import CarRepairShop.Lib.Sequential

/-! # One unit of work at a time

A unit of work that runs alone keeps the promise it makes among others
(`run_ensures`), with nobody to interfere. So what `Committed` says holds of
the very tables it started on, and a property that every commit keeps holds
after any sequence of operations. Where an answer has to be known exactly, a unit
of work is computed statement by statement (`World.attempt_read` and the lemmas
after it).
-/

namespace CarRepairShop

open Lib Txn Prog

/-- Nobody else changes the tables. -/
abbrev Alone : List Write → Db → Db → Prop := fun _ a b => a = b

/-- No step is excluded. -/
abbrev AnyStep : ShopTx → Stmt → Db → Prop := fun _ _ _ => True

/-- An operation that succeeds alone commits what it promises. -/
theorem World.attempt_committed {w w' : World} {now : ℕ} {op : Op} {result : Outcome}
    (h : w.attempt now (program op) = .ok (result, w')) :
    ∃ tx nextId, Committed Alone AnyStep op result tx w.db ∧
      w' = ⟨postgres.applyAll w.db tx.writes, nextId⟩ := by
  unfold World.attempt at h
  cases hrun : (program op).run postgres now w.db w.nextId {} with
  | error failure =>
      rw [hrun] at h
      cases h
  | ok fin =>
      rw [hrun] at h
      cases h
      have hens := program_ensures (G := AnyStep) shopInterference_alone op w.db
      have hcommitted := run_ensures (fun _ _ => rfl) (fun _ _ _ => trivial) hens hrun
      exact ⟨fin.tx, fin.nextId, hcommitted, rfl⟩

theorem World.attempt_eq {α : Type} (w : World) (now : ℕ) (p : Work α) :
    w.attempt now p = ((p.run postgres now w.db w.nextId {}).map leaves).map fun left =>
      (left.1, ⟨postgres.applyAll w.db left.2.1, left.2.2⟩) := by
  unfold World.attempt
  cases p.run postgres now w.db w.nextId {} with
  | error failure => rfl
  | ok fin => rfl

/-- A unit of work that begins with a statement that writes nothing. -/
theorem World.attempt_read {α : Type} {w : World} {s : Stmt} {r : s.Resp}
    (h : exec s w.db = .ok (r, [])) (now : ℕ) (refused : Failure → Failure) (k : s.Resp → Work α) :
    w.attempt now (.stmt s refused k) = w.attempt now (k r) := by
  have hrun : (Prog.stmt s refused k).run postgres now w.db w.nextId {}
      = (k r).run postgres now w.db w.nextId (Tx.record {} s r []) := by
    simp only [Prog.run, Engine.view, Engine.applyAll_nil]
    rw [show postgres.exec s w.db = .ok (r, []) from h]
  rw [World.attempt_eq, World.attempt_eq, hrun]
  exact congrArg _ (run_leaves rfl)

/-- A unit of work that begins with the drawing of an identifier. -/
theorem World.attempt_draw {α : Type} (w : World) (now : ℕ) (k : ℕ → Work α) :
    w.attempt now (.draw k) = World.attempt ⟨w.db, w.nextId + 1⟩ now (k w.nextId) := rfl

/-- A unit of work that ends with one statement. -/
theorem World.attempt_stmt {α : Type} (w : World) (now : ℕ) (s : Stmt)
    (refused : Failure → Failure) (f : s.Resp → α) :
    w.attempt now (.stmt s refused fun r => .pure (f r)) = match exec s w.db with
      | .error failure => .error (refused failure)
      | .ok (r, ws) => .ok (f r, ⟨postgres.applyAll w.db ws, w.nextId⟩) := by
  unfold World.attempt
  simp only [Prog.run, Engine.view, Engine.applyAll_nil]
  rw [show postgres.exec s w.db = exec s w.db from rfl]
  cases exec s w.db with
  | error failure => rfl
  | ok p => rfl

theorem World.le_nextId_of_attempt {α : Type} {w w' : World} {now : ℕ} {p : Work α} {a : α}
    (h : w.attempt now p = .ok (a, w')) : w.nextId ≤ w'.nextId := by
  unfold World.attempt at h
  cases hrun : p.run postgres now w.db w.nextId {} with
  | error failure =>
      rw [hrun] at h
      cases h
  | ok fin =>
      rw [hrun] at h
      cases h
      exact le_nextId_of_run hrun

/-- How a unit of work ends, when it is attempted. -/
theorem World.attempt_ends {α : Type} {w : World} {p : Work α} {Q : α → Db → Prop}
    {F : Failure → Prop} (h : p.Ends postgres Q F w.db) (now : ℕ) :
    (∃ a w', w.attempt now p = .ok (a, w') ∧ Q a w'.db) ∨
      ∃ failure, w.attempt now p = .error failure ∧ F failure := by
  have hview : p.Ends postgres Q F (postgres.view ({} : ShopTx) w.db) := h
  unfold World.attempt
  rcases hview.run now w.nextId with ⟨fin, hrun, hQ⟩ | ⟨failure, hrun, hF⟩
  · rw [hrun]
    exact .inl ⟨fin.value, _, rfl, hQ⟩
  · rw [hrun]
    exact .inr ⟨failure, rfl, hF⟩

/-- An operation that throws changes nothing. -/
theorem World.perform_error {w : World} {now : ℕ} {op : Op} {failure : Failure}
    (h : w.attempt now (program op) = .error failure) : w.perform now op = w := by
  unfold World.perform
  rw [h]

theorem World.perform_ok {w w' : World} {now : ℕ} {op : Op} {result : Outcome}
    (h : w.attempt now (program op) = .ok (result, w')) : w.perform now op = w' := by
  unfold World.perform
  rw [h]

theorem World.le_nextId_perform (w : World) (now : ℕ) (op : Op) :
    w.nextId ≤ (w.perform now op).nextId := by
  cases hattempt : w.attempt now (program op) with
  | error failure => rw [World.perform_error hattempt]
  | ok p =>
      rw [World.perform_ok hattempt]
      exact World.le_nextId_of_attempt hattempt

/-- One operation, by how its unit of work ends. -/
theorem World.perform_ends {w : World} {op : Op} {Q : Outcome → Db → Prop} {F : Failure → Prop}
    (h : (program op).Ends postgres Q F w.db) (now : ℕ) :
    (∃ result, Q result (w.perform now op).db) ∨
      (w.perform now op = w ∧ ∃ failure, F failure) := by
  rcases World.attempt_ends h now with ⟨result, w', hrun, hQ⟩ | ⟨failure, hrun, hF⟩
  · rw [World.perform_ok hrun]
    exact .inl ⟨result, hQ⟩
  · exact .inr ⟨World.perform_error hrun, failure, hF⟩

/-- What one operation does: nothing, when it throws, or what it commits. -/
theorem World.perform_cases (w : World) (now : ℕ) (op : Op) :
    w.perform now op = w ∨ ∃ result tx nextId, Committed Alone AnyStep op result tx w.db ∧
      w.perform now op = ⟨postgres.applyAll w.db tx.writes, nextId⟩ := by
  cases hattempt : w.attempt now (program op) with
  | error failure => exact Or.inl (World.perform_error hattempt)
  | ok p =>
      rcases p with ⟨result, w'⟩
      rcases World.attempt_committed hattempt with ⟨tx, nextId, hcommitted, hw'⟩
      exact Or.inr ⟨result, tx, nextId, hcommitted, (World.perform_ok hattempt).trans hw'⟩

theorem World.performAll_cons (w : World) (op : ℕ × Op) (ops : List (ℕ × Op)) :
    w.performAll (op :: ops) = (w.perform op.1 op.2).performAll ops := rfl

/-- The induction over a serial run. -/
theorem World.performAll_induction {P : Db → Prop}
    (hcommit : ∀ db op result tx, P db → Committed Alone AnyStep op result tx db →
      P (postgres.applyAll db tx.writes)) (ops : List (ℕ × Op)) {w : World} (h : P w.db) :
    P (w.performAll ops).db := by
  induction ops generalizing w with
  | nil => exact h
  | cons op ops ih =>
      have hnext : P (w.perform op.1 op.2).db := by
        rcases w.perform_cases op.1 op.2 with hsame | ⟨result, tx, nextId, hcom, hdb⟩
        · rw [hsame]
          exact h
        · rw [hdb]
          exact hcommit w.db op.2 result tx h hcom
      exact ih hnext

/-- Operations in order at one time, all of which have to succeed. -/
def World.completeAll (now : ℕ) (w : World) : List Op → Option World
  | [] => some w
  | op :: ops =>
      match w.attempt now (program op) with
      | .ok (_, w') => w'.completeAll now ops
      | .error _ => none

/-- One more operation that succeeds. -/
theorem World.completeAll_snoc {now : ℕ} {w w₁ w₂ : World} {ops : List Op} {op : Op}
    {result : Outcome} (h : w.completeAll now ops = some w₁)
    (hlast : w₁.attempt now (program op) = .ok (result, w₂)) :
    w.completeAll now (ops ++ [op]) = some w₂ := by
  induction ops generalizing w with
  | nil =>
      cases h
      simp [World.completeAll, hlast]
  | cons op' ops ih =>
      rw [List.cons_append]
      unfold World.completeAll at h ⊢
      cases hfirst : w.attempt now (program op') with
      | error failure =>
          rw [hfirst] at h
          cases h
      | ok p =>
          rw [hfirst] at h
          exact ih h

/-- In a serial run every history accounts for its status. -/
theorem accounted_commit {R : List Write → Db → Db → Prop} {G : ShopTx → Stmt → Db → Prop}
    {op : Op} {tx : ShopTx} {db : Db} (h : OrderStep R G op tx db)
    (hall : ∀ o row, db.orders.find? o = some row → row.Accounted) :
    ∀ o row, (postgres.applyAll db tx.writes).orders.find? o = some row → row.Accounted := by
  refine h.orders (fun _ _ _ hrow => hrow) ?_ ?_ hall
  · intro input o row message hopen
    exact hopen.accounted
  · intro o data expected r₀ r₁ hcommit hlegal _ hacc
    exact hacc.change (hcommit.revision.change hlegal)

end CarRepairShop
