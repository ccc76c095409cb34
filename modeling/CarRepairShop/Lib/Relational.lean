import Mathlib.Data.List.Forall2
import CarRepairShop.Lib.Sequential

/-! # Two runs of one unit of work

`Prog.Relates` is a relational specification: two units of work, each alone on
its own tables, issue statements in step. In every step both are answered or
both are refused, in the end both return values in `Q` or both throw the same
error. The identifiers they draw and the times they read need not be the same,
so two runs of one unit of work at different moments can be compared.

The rules follow the unary ones: a weaker promise (`Relates.mono`), one part
after the other (`Relates.seq`) and loops (`Relates.each`). `Relates.run` is
the way back to how the two runs end.
-/

namespace Txn.Prog

variable {Db Stmt Write Err α α' β β' γ : Type} {Resp : Stmt → Type}

/-- The units of work on the tables `v` and `v'` go in step and end in `Q`, or
with one error. -/
inductive Relates (E : Engine Db Stmt Resp Write Err) (Q : α → Db → α' → Db → Prop) :
    Prog Stmt Resp Err α → Prog Stmt Resp Err α' → Db → Db → Prop where
  | pure {a : α} {a' : α'} {v v' : Db} (promise : Q a v a' v') :
      Relates E Q (.pure a) (.pure a') v v'
  | throw (e : Err) (v v' : Db) : Relates E Q (.throw e) (.throw e) v v'
  | draw {k : ℕ → Prog Stmt Resp Err α} {k' : ℕ → Prog Stmt Resp Err α'} {v v' : Db}
      (rest : ∀ n n', Relates E Q (k n) (k' n') v v') : Relates E Q (.draw k) (.draw k') v v'
  | clock {k : ℕ → Prog Stmt Resp Err α} {k' : ℕ → Prog Stmt Resp Err α'} {v v' : Db}
      (rest : ∀ t t', Relates E Q (k t) (k' t') v v') : Relates E Q (.clock k) (.clock k') v v'
  | answered {s s' : Stmt} {refused refused' : Err → Err} {k : Resp s → Prog Stmt Resp Err α}
      {k' : Resp s' → Prog Stmt Resp Err α'} {v v' : Db} {r : Resp s} {r' : Resp s'}
      {ws ws' : List Write} (left : E.exec s v = .ok (r, ws)) (right : E.exec s' v' = .ok (r', ws'))
      (rest : Relates E Q (k r) (k' r') (E.applyAll v ws) (E.applyAll v' ws')) :
      Relates E Q (.stmt s refused k) (.stmt s' refused' k') v v'
  | refused {s s' : Stmt} {refused refused' : Err → Err} {k : Resp s → Prog Stmt Resp Err α}
      {k' : Resp s' → Prog Stmt Resp Err α'} {v v' : Db} {e e' : Err}
      (left : E.exec s v = .error e) (right : E.exec s' v' = .error e')
      (same : refused e = refused' e') : Relates E Q (.stmt s refused k) (.stmt s' refused' k') v v'

variable {E : Engine Db Stmt Resp Write Err} {Q Q' : α → Db → α' → Db → Prop}
variable {p : Prog Stmt Resp Err α} {p' : Prog Stmt Resp Err α'} {v v' : Db}

/-- A weaker promise. -/
theorem Relates.mono (h : p.Relates E Q p' v v') (himp : ∀ a u a' u', Q a u a' u' → Q' a u a' u') :
    p.Relates E Q' p' v v' := by
  induction h with
  | pure hQ => exact .pure (himp _ _ _ _ hQ)
  | throw e v v' => exact .throw e v v'
  | draw _ ih => exact .draw ih
  | clock _ ih => exact .clock ih
  | answered hleft hright _ ih => exact .answered hleft hright ih
  | refused hleft hright hsame => exact .refused hleft hright hsame

/-- The sequencing rule. -/
theorem Relates.seq {P : α → Db → α' → Db → Prop} {Q : β → Db → β' → Db → Prop}
    {f : α → Prog Stmt Resp Err β} {f' : α' → Prog Stmt Resp Err β'} (hp : p.Relates E P p' v v')
    (hf : ∀ a u a' u', P a u a' u' → (f a).Relates E Q (f' a') u u') :
    (p >>= f).Relates E Q (p' >>= f') v v' := by
  change (p.bind f).Relates E Q (p'.bind f') v v'
  induction hp with
  | pure hP => exact hf _ _ _ _ hP
  | throw e v v' => exact .throw e v v'
  | draw _ ih => exact .draw ih
  | clock _ ih => exact .clock ih
  | answered hleft hright _ ih => exact .answered hleft hright ih
  | refused hleft hright hsame => exact .refused hleft hright hsame

/-- The loop rule for two loops over one list: the rounds keep `I`, and their
results are related one by one. -/
theorem Relates.each {I : Db → Db → Prop} {R : β → β' → Prop} {f : γ → Prog Stmt Resp Err β}
    {f' : γ → Prog Stmt Resp Err β'}
    (hf : ∀ x u u', I u u' →
      (f x).Relates E (fun y w y' w' => R y y' ∧ I w w') (f' x) u u')
    (xs : List γ) {v v' : Db} (h : I v v') :
    (Prog.each f xs).Relates E (fun ys w ys' w' => List.Forall₂ R ys ys' ∧ I w w')
      (Prog.each f' xs) v v' := by
  induction xs generalizing v v' with
  | nil => exact .pure ⟨.nil, h⟩
  | cons x xs ih =>
      refine (hf x v v' h).seq ?_
      intro y u y' u' ⟨hy, hu⟩
      refine (ih hu).seq ?_
      intro ys w ys' w' ⟨hys, hw⟩
      exact .pure ⟨.cons hy hys, hw⟩

/-- How two runs of related units of work end. -/
theorem Relates.run {tx tx' : Tx Stmt Resp Write} {db db' : Db}
    (h : p.Relates E Q p' (E.view tx db) (E.view tx' db')) (now now' nextId nextId' : ℕ) :
    (∃ fin fin', p.run E now db nextId tx = .ok fin ∧ p'.run E now' db' nextId' tx' = .ok fin' ∧
      Q fin.value (E.view fin.tx db) fin'.value (E.view fin'.tx db')) ∨
    ∃ e, p.run E now db nextId tx = .error e ∧ p'.run E now' db' nextId' tx' = .error e := by
  generalize hv : E.view tx db = v at h
  generalize hv' : E.view tx' db' = v' at h
  induction h generalizing tx tx' nextId nextId' with
  | pure hQ =>
      subst hv hv'
      exact .inl ⟨_, _, rfl, rfl, hQ⟩
  | throw e => exact .inr ⟨e, rfl, rfl⟩
  | draw _ ih => exact ih nextId nextId' (nextId + 1) (nextId' + 1) hv hv'
  | clock _ ih => exact ih now now' nextId nextId' hv hv'
  | answered hleft hright _ ih =>
      rw [Prog.run, hv, hleft, Prog.run, hv', hright]
      refine ih nextId nextId' ?_ ?_
      · rw [E.view_record, hv]
      · rw [E.view_record, hv']
  | refused hleft hright hsame =>
      rw [Prog.run, hv, hleft, Prog.run, hv', hright]
      refine .inr ⟨_, rfl, ?_⟩
      rw [hsame]

end Txn.Prog
