import CarRepairShop.Lib.ReadCommitted

/-! # Two databases side by side

A service whose tables fall in two parts that share nothing: an engine for each
part, and the two of them as one engine (`Engine.beside`), with the statements
of both. A unit of work of one part is one of the whole (`Prog.left`,
`Prog.right`), and what it ensures among the others of its part it ensures among
all the others (`Ensures.left`, `Ensures.right`), whatever happens on the other
side (`Beside`).
-/

namespace Txn

variable {Db Db' Stmt Stmt' Write Write' Err α β : Type}
variable {Resp : Stmt → Type} {Resp' : Stmt' → Type}

/-- Both engines as one, on the pair of their tables. -/
def Engine.beside (E : Engine Db Stmt Resp Write Err) (E' : Engine Db' Stmt' Resp' Write' Err) :
    Engine (Db × Db') (Stmt ⊕ Stmt') (Sum.elim Resp Resp') (Write ⊕ Write') Err where
  exec
    | .inl s, db => (E.exec s db.1).map fun (r, ws) => (r, ws.map .inl)
    | .inr s, db => (E'.exec s db.2).map fun (r, ws) => (r, ws.map .inr)
  apply
    | db, .inl w => (E.apply db.1 w, db.2)
    | db, .inr w => (db.1, E'.apply db.2 w)
  conflicts
    | .inl w, .inl w' => E.conflicts w w'
    | .inr w, .inr w' => E'.conflicts w w'
    | _, _ => false

/-- The writes on the left. -/
def lefts (ws : List (Write ⊕ Write')) : List Write := ws.filterMap Sum.getLeft?

/-- The writes on the right. -/
def rights (ws : List (Write ⊕ Write')) : List Write' := ws.filterMap Sum.getRight?

@[simp] theorem lefts_append (ws ws' : List (Write ⊕ Write')) :
    lefts (ws ++ ws') = lefts ws ++ lefts ws' := List.filterMap_append

@[simp] theorem rights_append (ws ws' : List (Write ⊕ Write')) :
    rights (ws ++ ws') = rights ws ++ rights ws' := List.filterMap_append

@[simp] theorem lefts_inl (ws : List Write) :
    lefts (ws.map (Sum.inl : Write → Write ⊕ Write')) = ws := by
  induction ws with
  | nil => rfl
  | cons w ws ih => simpa [lefts] using ih

@[simp] theorem lefts_inr (ws : List Write') :
    lefts (ws.map (Sum.inr : Write' → Write ⊕ Write')) = [] := by
  simp [lefts]

@[simp] theorem rights_inl (ws : List Write) :
    rights (ws.map (Sum.inl : Write → Write ⊕ Write')) = [] := by
  simp [rights]

@[simp] theorem rights_inr (ws : List Write') :
    rights (ws.map (Sum.inr : Write' → Write ⊕ Write')) = ws := by
  induction ws with
  | nil => rfl
  | cons w ws ih => simpa [rights] using ih

section Engine

variable {E : Engine Db Stmt Resp Write Err} {E' : Engine Db' Stmt' Resp' Write' Err}

/-- Each part performs its own writes. -/
theorem Engine.applyAll_beside (db : Db × Db') (ws : List (Write ⊕ Write')) :
    (E.beside E').applyAll db ws = (E.applyAll db.1 (lefts ws), E'.applyAll db.2 (rights ws)) := by
  induction ws generalizing db with
  | nil => rfl
  | cons w ws ih =>
      cases w with
      | inl w => exact ih _
      | inr w => exact ih _

theorem Engine.conflicts_beside_comm (h : ∀ w w', E.conflicts w w' = E.conflicts w' w)
    (h' : ∀ w w', E'.conflicts w w' = E'.conflicts w' w) (w w' : Write ⊕ Write') :
    (E.beside E').conflicts w w' = (E.beside E').conflicts w' w := by
  cases w with
  | inl a =>
      cases w' with
      | inl b => exact h a b
      | inr b => rfl
  | inr a =>
      cases w' with
      | inl b => rfl
      | inr b => exact h' a b

/-- Writes that do not conflict with those of both parts do not conflict with the left ones. -/
theorem Engine.clear_left {ws : List Write} {held : List (Write ⊕ Write')}
    (h : ∀ w ∈ ws.map Sum.inl, ∀ w' ∈ held, (E.beside E').conflicts w w' = false) :
    ∀ w ∈ ws, ∀ w' ∈ lefts held, E.conflicts w w' = false := by
  intro w hw w' hw'
  rcases List.mem_filterMap.mp hw' with ⟨x, hx, hleft⟩
  rw [Sum.getLeft?_eq_some_iff] at hleft
  subst hleft
  exact h (.inl w) (List.mem_map_of_mem hw) (.inl w') hx

end Engine

/-! ## Units of work of one part -/

/-- A unit of work of the left part, as one of the whole. -/
def Prog.left : Prog Stmt Resp Err α → Prog (Stmt ⊕ Stmt') (Sum.elim Resp Resp') Err α
  | .pure a => .pure a
  | .throw e => .throw e
  | .draw k => .draw fun n => (k n).left
  | .clock k => .clock fun n => (k n).left
  | .stmt s refused k => .stmt (.inl s) refused fun r => (k r).left

/-- A unit of work of the right part, as one of the whole. -/
def Prog.right : Prog Stmt' Resp' Err α → Prog (Stmt ⊕ Stmt') (Sum.elim Resp Resp') Err α
  | .pure a => .pure a
  | .throw e => .throw e
  | .draw k => .draw fun n => (k n).right
  | .clock k => .clock fun n => (k n).right
  | .stmt s refused k => .stmt (.inr s) refused fun r => (k r).right

/-- What was done on the left, as done in the whole. -/
def Tx.left (tx : Tx Stmt Resp Write) : Tx (Stmt ⊕ Stmt') (Sum.elim Resp Resp') (Write ⊕ Write') where
  trace := tx.trace.map fun x => ⟨.inl x.1, x.2⟩
  writes := tx.writes.map .inl

/-- What was done on the right, as done in the whole. -/
def Tx.right (tx : Tx Stmt' Resp' Write') :
    Tx (Stmt ⊕ Stmt') (Sum.elim Resp Resp') (Write ⊕ Write') where
  trace := tx.trace.map fun x => ⟨.inr x.1, x.2⟩
  writes := tx.writes.map .inr

/-- What the others do to each part respects the writes held there. -/
def Beside (R : List Write → Db → Db → Prop) (R' : List Write' → Db' → Db' → Prop)
    (ws : List (Write ⊕ Write')) (a b : Db × Db') : Prop :=
  R (lefts ws) a.1 b.1 ∧ R' (rights ws) a.2 b.2

variable {R : List Write → Db → Db → Prop} {R' : List Write' → Db' → Db' → Prop}

theorem Interference.beside (h : Interference R) (h' : Interference R') :
    Interference (Beside R R') where
  refl ws db := ⟨h.refl _ _, h'.refl _ _⟩
  trans ws a b c hab hbc := ⟨h.trans _ _ _ _ hab.1 hbc.1, h'.trans _ _ _ _ hab.2 hbc.2⟩
  held ws ws' a b hab := by
    unfold Beside at hab
    rw [lefts_append, rights_append] at hab
    exact ⟨h.held _ _ _ _ hab.1, h'.held _ _ _ _ hab.2⟩

namespace Prog

variable {E : Engine Db Stmt Resp Write Err} {E' : Engine Db' Stmt' Resp' Write' Err}
variable {G : Tx (Stmt ⊕ Stmt') (Sum.elim Resp Resp') (Write ⊕ Write') → Stmt ⊕ Stmt' → Db × Db' →
  Prop}

/-- A unit of work of the left part ensures in the whole what it ensures there. -/
theorem Ensures.left {G₁ : Tx Stmt Resp Write → Stmt → Db → Prop}
    (hG : ∀ tx s v, G (Tx.left tx) (.inl s) v → G₁ tx s v.1)
    {Q : α → Tx Stmt Resp Write → Db → Prop} {p : Prog Stmt Resp Err α} {tx : Tx Stmt Resp Write}
    {db : Db × Db'} (h : p.Ensures E R G₁ Q tx db.1) :
    (p.left : Prog (Stmt ⊕ Stmt') (Sum.elim Resp Resp') Err α).Ensures (E.beside E') (Beside R R') G
      (fun a tx' db' => ∃ t : Tx Stmt Resp Write, tx' = t.left ∧ Q a t db'.1) tx.left db := by
  induction p generalizing tx db with
  | pure a =>
      intro db' hR
      refine ⟨tx, rfl, h db'.1 ?_⟩
      simpa [Tx.left] using hR.1
  | throw e => trivial
  | draw k ih => exact fun n => ih n (h n)
  | clock k ih => exact fun n => ih n (h n)
  | stmt s refused k ih =>
      intro db' hR hg r ws he
      have hview : (E.beside E').view (Tx.left tx) db' = (E.view tx db'.1, db'.2) := by
        unfold Engine.view
        rw [Engine.applyAll_beside]
        simp [Tx.left]
      rw [hview] at hg he
      have hRleft : R tx.writes db.1 db'.1 := by simpa [Tx.left] using hR.1
      -- the statement is answered as on the left alone
      cases hexec : E.exec s (E.view tx db'.1) with
      | error e => simp [Engine.beside, hexec, Except.map] at he
      | ok q =>
          simp only [Engine.beside, hexec, Except.map, Except.ok.injEq] at he
          cases he
          have hnext := h db'.1 hRleft (hG tx s _ hg) q.1 q.2 hexec
          have hrest := @ih q.1 _ db' hnext
          have hrecord : (Tx.left (tx.record s q.1 q.2) :
              Tx (Stmt ⊕ Stmt') (Sum.elim Resp Resp') (Write ⊕ Write')) =
                (Tx.left tx).record (.inl s) q.1 (q.2.map .inl) := by
            simp [Tx.left, Tx.record]
          rw [hrecord] at hrest
          exact hrest

/-- A unit of work of the right part ensures in the whole what it ensures there. -/
theorem Ensures.right {G₁ : Tx Stmt' Resp' Write' → Stmt' → Db' → Prop}
    (hG : ∀ tx s v, G (Tx.right tx) (.inr s) v → G₁ tx s v.2)
    {Q : α → Tx Stmt' Resp' Write' → Db' → Prop} {p : Prog Stmt' Resp' Err α}
    {tx : Tx Stmt' Resp' Write'} {db : Db × Db'} (h : p.Ensures E' R' G₁ Q tx db.2) :
    (p.right : Prog (Stmt ⊕ Stmt') (Sum.elim Resp Resp') Err α).Ensures (E.beside E') (Beside R R')
      G (fun a tx' db' => ∃ t : Tx Stmt' Resp' Write', tx' = t.right ∧ Q a t db'.2) tx.right db := by
  induction p generalizing tx db with
  | pure a =>
      intro db' hR
      refine ⟨tx, rfl, h db'.2 ?_⟩
      simpa [Tx.right] using hR.2
  | throw e => trivial
  | draw k ih => exact fun n => ih n (h n)
  | clock k ih => exact fun n => ih n (h n)
  | stmt s refused k ih =>
      intro db' hR hg r ws he
      have hview : (E.beside E').view (Tx.right tx) db' = (db'.1, E'.view tx db'.2) := by
        unfold Engine.view
        rw [Engine.applyAll_beside]
        simp [Tx.right]
      rw [hview] at hg he
      have hRright : R' tx.writes db.2 db'.2 := by simpa [Tx.right] using hR.2
      cases hexec : E'.exec s (E'.view tx db'.2) with
      | error e => simp [Engine.beside, hexec, Except.map] at he
      | ok q =>
          simp only [Engine.beside, hexec, Except.map, Except.ok.injEq] at he
          cases he
          have hnext := h db'.2 hRright (hG tx s _ hg) q.1 q.2 hexec
          have hrest := @ih q.1 _ db' hnext
          have hrecord : (Tx.right (tx.record s q.1 q.2) :
              Tx (Stmt ⊕ Stmt') (Sum.elim Resp Resp') (Write ⊕ Write')) =
                (Tx.right tx).record (.inr s) q.1 (q.2.map .inr) := by
            simp [Tx.right, Tx.record]
          rw [hrecord] at hrest
          exact hrest

end Prog

end Txn
