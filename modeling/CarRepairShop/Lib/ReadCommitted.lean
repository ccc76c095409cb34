import Mathlib.Data.List.Nodup
import Mathlib.Data.List.Perm.Basic
import CarRepairShop.Lib.Transaction

/-! # Interleaved transactions under READ COMMITTED

Any number of units of work run at once against one database, one statement
at a time and in any order. A statement sees the latest committed tables and
the writes of its own transaction; the writes become visible to the others at
the commit, all together; a statement that would write a row held by another
open transaction cannot run until that one ends. A transaction can stop at any
point, by an error of its own, a refused statement or a crash, and then leaves
nothing behind.

The system keeps a log of its commits. It is not read by any step: it is what
theorems about runs speak of.

The main rule is `Reachable.log_induction`: when every unit of work meets its
rely–guarantee specification, and the guarantee of each covers what the others
rely on, then a property of the committed tables and the log that every
specified commit preserves holds in every reachable state.
-/

namespace Txn

variable {Db Stmt Write Err Op α : Type} {Resp : Stmt → Type}

/-- One unit of work in progress, or how it ended. -/
inductive Session (Stmt : Type) (Resp : Stmt → Type) (Write Err Op α : Type) : Type where
  | running (op : Op) (prog : Prog Stmt Resp Err α) (tx : Tx Stmt Resp Write)
  | committed (op : Op) (result : α)
  | aborted (op : Op) (error : Option Err)

namespace Session

variable (s : Session Stmt Resp Write Err Op α)

/-- What the session was started to do. -/
def op : Op :=
  match s with
  | .running op _ _ => op
  | .committed op _ => op
  | .aborted op _ => op

/-- What the session was started to do and what it returned, once committed. -/
def completed? : Option (Op × α) :=
  match s with
  | .committed op a => some (op, a)
  | _ => none

/-- The writes the session holds; an ended session holds none. -/
def held : List Write :=
  match s with
  | .running _ _ tx => tx.writes
  | _ => []

end Session

/-- A commit: which session, what it did, and the tables just before. -/
structure Commit (Db Stmt : Type) (Resp : Stmt → Type) (Write Op α : Type) where
  session : ℕ
  op : Op
  result : α
  tx : Tx Stmt Resp Write
  before : Db

/-- The tables just after a commit. -/
def Commit.after (E : Engine Db Stmt Resp Write Err) (c : Commit Db Stmt Resp Write Op α) : Db :=
  E.applyAll c.before c.tx.writes

/-- The whole system: the committed tables, the supply of identifiers, the
clock, the sessions in the order they started, and the log of commits. -/
structure Sys (Db Stmt : Type) (Resp : Stmt → Type) (Write Err Op α : Type) where
  db : Db
  nextId : ℕ := 0
  now : ℕ := 0
  sessions : List (Session Stmt Resp Write Err Op α) := []
  log : List (Commit Db Stmt Resp Write Op α) := []

/-- The moves of the system. -/
inductive Label (Op : Type) where
  | launch (op : Op)
  | advance (i : ℕ)
  | crash (i : ℕ)
  | tick (d : ℕ)
deriving Repr

/-- Starts session `i` with `op` and lets it make `n` moves in a row. -/
def Label.session (i : ℕ) (op : Op) (n : ℕ) : List (Label Op) :=
  .launch op :: List.replicate n (.advance i)

/-- A restriction of the runs considered: the units of work that may start,
and the statements they may execute in the situation at hand. -/
structure Guard (Db Stmt : Type) (Resp : Stmt → Type) (Write Op : Type) where
  launch : Op → Bool
  stmt : Op → Tx Stmt Resp Write → Stmt → Db → Bool

/-- The guard that restricts nothing. -/
def Guard.none : Guard Db Stmt Resp Write Op where
  launch _ := true
  stmt _ _ _ _ := true

namespace Sys

variable (E : Engine Db Stmt Resp Write Err) (program : Op → Prog Stmt Resp Err α)

/-- Whether a session other than `i` holds a write that conflicts with `ws`. -/
def blocked (s : Sys Db Stmt Resp Write Err Op α) (i : ℕ) (ws : List Write) : Bool :=
  s.sessions.zipIdx.any fun (t, j) =>
    j != i && t.held.any fun w => ws.any fun w' => E.conflicts w w'

/-- Replaces session `i`. -/
def put (s : Sys Db Stmt Resp Write Err Op α) (i : ℕ) (t : Session Stmt Resp Write Err Op α) :
    Sys Db Stmt Resp Write Err Op α :=
  { s with sessions := s.sessions.set i t }

/-- The next move of a session that still runs. -/
def advance (s : Sys Db Stmt Resp Write Err Op α) (i : ℕ) (op : Op) (tx : Tx Stmt Resp Write) :
    Prog Stmt Resp Err α → Option (Sys Db Stmt Resp Write Err Op α)
  | .pure a =>
      some { s with
        db := E.applyAll s.db tx.writes
        sessions := s.sessions.set i (.committed op a)
        log := s.log ++ [⟨i, op, a, tx, s.db⟩] }
  | .throw e => some (s.put i (.aborted op (some e)))
  | .draw k => some { s.put i (.running op (k s.nextId) tx) with nextId := s.nextId + 1 }
  | .clock k => some (s.put i (.running op (k s.now) tx))
  | .stmt q refused k =>
      match E.exec q (E.view tx s.db) with
      | .error e => some (s.put i (.aborted op (some (refused e))))
      | .ok (r, ws) =>
          if s.blocked E i ws then none
          else some (s.put i (.running op (k r) (tx.record q r ws)))

/-- One move; `none` when it is not possible. -/
def step (s : Sys Db Stmt Resp Write Err Op α) :
    Label Op → Option (Sys Db Stmt Resp Write Err Op α)
  | .launch op => some { s with sessions := s.sessions ++ [.running op (program op) {}] }
  | .advance i =>
      match s.sessions[i]? with
      | some (.running op prog tx) => s.advance E i op tx prog
      | _ => none
  | .crash i =>
      match s.sessions[i]? with
      | some (.running op _ _) => some (s.put i (.aborted op none))
      | _ => none
  | .tick d => some { s with now := s.now + d }

/-- Whether the guard lets a move happen. -/
def allowed (G : Guard Db Stmt Resp Write Op) (s : Sys Db Stmt Resp Write Err Op α) :
    Label Op → Bool
  | .launch op => G.launch op
  | .advance i =>
      match s.sessions[i]? with
      | some (.running op (.stmt q _ _) tx) => G.stmt op tx q (E.view tx s.db)
      | _ => true
  | _ => true

theorem allowed_none (s : Sys Db Stmt Resp Write Err Op α) (l : Label Op) :
    s.allowed E .none l = true := by
  cases l with
  | advance i =>
      simp only [Sys.allowed]
      split <;> rfl
  | _ => rfl

/-- Makes the moves of a list in order; `none` when one is impossible or not
allowed by the guard. -/
def play (G : Guard Db Stmt Resp Write Op) (s : Sys Db Stmt Resp Write Err Op α) :
    List (Label Op) → Option (Sys Db Stmt Resp Write Err Op α)
  | [] => some s
  | l :: ls =>
      if s.allowed E G l then (s.step E program l).bind fun s' => s'.play G ls else none

end Sys

/-- The states a guarded run reaches from `init`. -/
inductive Reachable (E : Engine Db Stmt Resp Write Err) (program : Op → Prog Stmt Resp Err α)
    (G : Guard Db Stmt Resp Write Op) (init : Sys Db Stmt Resp Write Err Op α) :
    Sys Db Stmt Resp Write Err Op α → Prop where
  | init : Reachable E program G init init
  | step {s s' : Sys Db Stmt Resp Write Err Op α} (l : Label Op) :
      Reachable E program G init s → s.allowed E G l = true → s.step E program l = some s' →
      Reachable E program G init s'

section Runs

variable {E : Engine Db Stmt Resp Write Err} {program : Op → Prog Stmt Resp Err α}
variable {G G' : Guard Db Stmt Resp Write Op} {init s s' : Sys Db Stmt Resp Write Err Op α}

theorem reachable_of_play (hs : Reachable E program G init s) :
    ∀ {ls : List (Label Op)}, s.play E program G ls = some s' → Reachable E program G init s' := by
  intro ls h
  induction ls generalizing s with
  | nil =>
      cases h
      exact hs
  | cons l ls ih =>
      simp only [Sys.play] at h
      split at h
      · next hall =>
        cases hst : s.step E program l with
        | none => simp [hst] at h
        | some s₁ =>
            rw [hst, Option.bind_some] at h
            exact ih (.step l hs hall hst) h
      · cases h

/-- Everything one move can do. -/
inductive Move (E : Engine Db Stmt Resp Write Err) (program : Op → Prog Stmt Resp Err α)
    (G : Guard Db Stmt Resp Write Op) (s : Sys Db Stmt Resp Write Err Op α) :
    Sys Db Stmt Resp Write Err Op α → Prop where
  | launch (op : Op) (h : G.launch op = true) :
      Move E program G s { s with sessions := s.sessions ++ [.running op (program op) {}] }
  | tick (d : ℕ) : Move E program G s { s with now := s.now + d }
  | stop (i : ℕ) (op : Op) (p : Prog Stmt Resp Err α) (tx : Tx Stmt Resp Write) (e : Option Err)
      (hi : s.sessions[i]? = some (.running op p tx)) :
      Move E program G s (s.put i (.aborted op e))
  | draw (i : ℕ) (op : Op) (k : ℕ → Prog Stmt Resp Err α) (tx : Tx Stmt Resp Write)
      (hi : s.sessions[i]? = some (.running op (.draw k) tx)) :
      Move E program G s { s.put i (.running op (k s.nextId) tx) with nextId := s.nextId + 1 }
  | clock (i : ℕ) (op : Op) (k : ℕ → Prog Stmt Resp Err α) (tx : Tx Stmt Resp Write)
      (hi : s.sessions[i]? = some (.running op (.clock k) tx)) :
      Move E program G s (s.put i (.running op (k s.now) tx))
  | stmt (i : ℕ) (op : Op) (q : Stmt) (refused : Err → Err) (k : Resp q → Prog Stmt Resp Err α)
      (tx : Tx Stmt Resp Write) (r : Resp q) (ws : List Write)
      (hi : s.sessions[i]? = some (.running op (.stmt q refused k) tx))
      (hg : G.stmt op tx q (E.view tx s.db) = true)
      (he : E.exec q (E.view tx s.db) = .ok (r, ws)) (hb : s.blocked E i ws = false) :
      Move E program G s (s.put i (.running op (k r) (tx.record q r ws)))
  | commit (i : ℕ) (op : Op) (a : α) (tx : Tx Stmt Resp Write)
      (hi : s.sessions[i]? = some (.running op (.pure a) tx)) :
      Move E program G s { s with
        db := E.applyAll s.db tx.writes
        sessions := s.sessions.set i (.committed op a)
        log := s.log ++ [⟨i, op, a, tx, s.db⟩] }

theorem move_of_step {l : Label Op} (hall : s.allowed E G l = true)
    (h : s.step E program l = some s') : Move E program G s s' := by
  cases l with
  | launch op =>
      cases h
      exact .launch op hall
  | tick d =>
      cases h
      exact .tick d
  | crash i =>
      simp only [Sys.step] at h
      split at h
      · next op p tx hi =>
        cases h
        exact .stop i op p tx none hi
      · cases h
  | advance i =>
      simp only [Sys.step] at h
      split at h
      · next op p tx hi =>
        cases p with
        | pure a =>
            cases h
            exact .commit i op a tx hi
        | throw e =>
            cases h
            exact .stop i op _ tx (some e) hi
        | draw k =>
            cases h
            exact .draw i op k tx hi
        | clock k =>
            cases h
            exact .clock i op k tx hi
        | stmt q refused k =>
            simp only [Sys.advance] at h
            split at h
            · cases h
              exact .stop i op _ tx _ hi
            · next r ws he =>
              split at h
              · cases h
              · next hb =>
                cases h
                refine .stmt i op q refused k tx r ws hi ?_ he (by simpa using hb)
                simpa [Sys.allowed, hi] using hall
      · cases h

end Runs

/-! ## Sessions and the log -/

/-- A value that a list did not have, put in place of one that counts for
nothing. -/
theorem filterMap_set_perm {β γ : Type} {f : β → Option γ} {xs : List β} {i : ℕ} {x y : β} {z : γ}
    (hi : xs[i]? = some x) (hx : f x = none) (hy : f y = some z) :
    ((xs.set i y).filterMap f).Perm (xs.filterMap f ++ [z]) := by
  induction xs generalizing i with
  | nil => cases hi
  | cons w ws ih =>
      cases i with
      | zero =>
          have hw : w = x := by simpa using hi
          rw [List.set_cons_zero, List.filterMap_cons, List.filterMap_cons, hw, hx, hy]
          exact (List.perm_append_singleton z _).symm
      | succ i =>
          have hrest := ih (by simpa using hi)
          rw [List.set_cons_succ, List.filterMap_cons, List.filterMap_cons]
          cases f w with
          | none => exact hrest
          | some v => exact hrest.cons v

/-- Replacing a value that counts for nothing by another that does. -/
theorem filterMap_set_none {β γ : Type} {f : β → Option γ} {xs : List β} {i : ℕ} {x y : β}
    (hi : xs[i]? = some x) (hx : f x = none) (hy : f y = none) :
    (xs.set i y).filterMap f = xs.filterMap f := by
  induction xs generalizing i with
  | nil => cases hi
  | cons w ws ih =>
      cases i with
      | zero =>
          have hw : w = x := by simpa using hi
          rw [List.set_cons_zero, List.filterMap_cons, List.filterMap_cons, hw, hx, hy]
      | succ i =>
          have hrest := ih (by simpa using hi)
          rw [List.set_cons_succ, List.filterMap_cons, List.filterMap_cons, hrest]

/-- The log has one commit for each session that committed, and no other. -/
theorem Reachable.completed_perm {E : Engine Db Stmt Resp Write Err}
    {program : Op → Prog Stmt Resp Err α} {G : Guard Db Stmt Resp Write Op}
    {init s : Sys Db Stmt Resp Write Err Op α} (hsessions : init.sessions = [])
    (hlog : init.log = []) (h : Reachable E program G init s) :
    (s.log.map fun c => (c.op, c.result)).Perm (s.sessions.filterMap Session.completed?) := by
  induction h with
  | init => simp [hsessions, hlog]
  | @step s₁ s₂ l _ hall hstep ih =>
      cases move_of_step hall hstep with
      | launch op _ => simpa [Session.completed?, List.filterMap_cons] using ih
      | tick d => exact ih
      | stop i op p tx e hi =>
          have hsame := filterMap_set_none (f := Session.completed?) (y := .aborted op e) hi rfl rfl
          rw [← hsame] at ih
          exact ih
      | draw i op k tx hi =>
          have hsame := filterMap_set_none (f := Session.completed?)
            (y := .running op (k s₁.nextId) tx) hi rfl rfl
          rw [← hsame] at ih
          exact ih
      | clock i op k tx hi =>
          have hsame := filterMap_set_none (f := Session.completed?)
            (y := .running op (k s₁.now) tx) hi rfl rfl
          rw [← hsame] at ih
          exact ih
      | stmt i op q refused k tx r ws hi _ _ _ =>
          have hsame := filterMap_set_none (f := Session.completed?)
            (y := .running op (k r) (tx.record q r ws)) hi rfl rfl
          rw [← hsame] at ih
          exact ih
      | commit i op a tx hi =>
          have hone := filterMap_set_perm (f := Session.completed?) (y := .committed op a) hi rfl rfl
          rw [List.map_append]
          exact (ih.append_right _).trans hone.symm

/-- Every commit of the log is that of a session that committed. -/
theorem Reachable.logged_session {E : Engine Db Stmt Resp Write Err}
    {program : Op → Prog Stmt Resp Err α} {G : Guard Db Stmt Resp Write Op}
    {init s : Sys Db Stmt Resp Write Err Op α} (hlog : init.log = [])
    (h : Reachable E program G init s) :
    ∀ c ∈ s.log, s.sessions[c.session]? = some (.committed c.op c.result) := by
  induction h with
  | init => simp [hlog]
  | @step s₁ s₂ l _ hall hstep ih =>
      -- a session that ended is not replaced any more
      have hkept : ∀ {i : ℕ} {op : Op} {p : Prog Stmt Resp Err α} {tx : Tx Stmt Resp Write}
          (t : Session Stmt Resp Write Err Op α), s₁.sessions[i]? = some (.running op p tx) →
          ∀ c ∈ s₁.log, (s₁.sessions.set i t)[c.session]? = some (.committed c.op c.result) := by
        intro i op p tx t hi c hc
        have hended := ih c hc
        have hne : i ≠ c.session := by
          intro heq
          rw [← heq, hi] at hended
          cases hended
        rw [List.getElem?_set_ne hne]
        exact hended
      cases move_of_step hall hstep with
      | launch op _ =>
          intro c hc
          have hended := ih c hc
          have hlt := (List.getElem?_eq_some_iff.mp hended).1
          rw [List.getElem?_append_left hlt]
          exact hended
      | tick d => exact ih
      | stop i op p tx e hi => exact hkept _ hi
      | draw i op k tx hi => exact hkept _ hi
      | clock i op k tx hi => exact hkept _ hi
      | stmt i op q refused k tx r ws hi _ _ _ => exact hkept _ hi
      | commit i op a tx hi =>
          intro c hc
          rcases List.mem_append.mp hc with hc | hc
          · exact hkept _ hi c hc
          · rw [List.mem_singleton.mp hc]
            have hlt := (List.getElem?_eq_some_iff.mp hi).1
            exact List.getElem?_set_self hlt

/-- A session keeps its operation. -/
theorem session_op_of_step {E : Engine Db Stmt Resp Write Err}
    {program : Op → Prog Stmt Resp Err α} {s s' : Sys Db Stmt Resp Write Err Op α} {l : Label Op}
    (h : s.step E program l = some s') {i : ℕ} {t : Session Stmt Resp Write Err Op α}
    (hi : s.sessions[i]? = some t) : ∃ t', s'.sessions[i]? = some t' ∧ t'.op = t.op := by
  have hset : ∀ {j : ℕ} {u u' : Session Stmt Resp Write Err Op α}, s.sessions[j]? = some u →
      u'.op = u.op → ∃ t', (s.sessions.set j u')[i]? = some t' ∧ t'.op = t.op := by
    intro j u u' hj hop
    by_cases hij : j = i
    · subst hij
      have hlt := (List.getElem?_eq_some_iff.mp hj).1
      rw [hj, Option.some.injEq] at hi
      exact ⟨u', List.getElem?_set_self hlt, by rw [hop, hi]⟩
    · exact ⟨t, by rw [List.getElem?_set_ne hij, hi], rfl⟩
  cases move_of_step (s.allowed_none E l) h with
  | launch op _ =>
      have hlt := (List.getElem?_eq_some_iff.mp hi).1
      exact ⟨t, by rw [List.getElem?_append_left hlt, hi], rfl⟩
  | tick d => exact ⟨t, hi, rfl⟩
  | stop j op p tx e hj => exact hset hj rfl
  | draw j op k tx hj => exact hset hj rfl
  | clock j op k tx hj => exact hset hj rfl
  | stmt j op q refused k tx r ws hj _ _ _ => exact hset hj rfl
  | commit j op a tx hj => exact hset hj rfl

/-! ## The rely–guarantee rule -/

/-- The units of work `program` meet their specifications: conflicts are
mutual, `R` is a preorder for each set of held writes, each unit of work that
may start ensures `Q`, and a commit that satisfies `Q` does to the others no
more than they rely on. -/
structure RelyGuarantee (E : Engine Db Stmt Resp Write Err)
    (program : Op → Prog Stmt Resp Err α) (G : Guard Db Stmt Resp Write Op)
    (R : List Write → Db → Db → Prop) (Q : Op → α → Tx Stmt Resp Write → Db → Prop) : Prop where
  conflicts_comm : ∀ w w', E.conflicts w w' = E.conflicts w' w
  refl : ∀ ws db, R ws db db
  trans : ∀ ws a b c, R ws a b → R ws b c → R ws a c
  launch : ∀ op, G.launch op = true → ∀ db,
    (program op).Ensures E R (fun tx q v => G.stmt op tx q v = true) (Q op) {} db
  commit : ∀ op a tx db ws, Q op a tx db →
    (∀ w ∈ tx.writes, ∀ w' ∈ ws, E.conflicts w w' = false) → R ws db (E.applyAll db tx.writes)

section Soundness

variable {E : Engine Db Stmt Resp Write Err} {program : Op → Prog Stmt Resp Err α}
variable {G : Guard Db Stmt Resp Write Op} {init s s' : Sys Db Stmt Resp Write Err Op α}
variable {R : List Write → Db → Db → Prop} {Q : Op → α → Tx Stmt Resp Write → Db → Prop}

/-- The invariant of the sessions: each that still runs meets its
specification from where it is, and no two hold conflicting writes. -/
structure Sessions (E : Engine Db Stmt Resp Write Err) (G : Guard Db Stmt Resp Write Op)
    (R : List Write → Db → Db → Prop) (Q : Op → α → Tx Stmt Resp Write → Db → Prop)
    (s : Sys Db Stmt Resp Write Err Op α) : Prop where
  ensures : ∀ (i : ℕ) (op : Op) (p : Prog Stmt Resp Err α) (tx : Tx Stmt Resp Write),
    s.sessions[i]? = some (.running op p tx) →
      p.Ensures E R (fun tx q v => G.stmt op tx q v = true) (Q op) tx s.db
  apart : ∀ (i j : ℕ) (t u : Session Stmt Resp Write Err Op α), i ≠ j →
    s.sessions[i]? = some t → s.sessions[j]? = some u →
      ∀ w ∈ t.held, ∀ w' ∈ u.held, E.conflicts w w' = false

/-- A session after session `i` was replaced is the new one or one of the others. -/
theorem Sys.getElem?_put {i m : ℕ} {t x : Session Stmt Resp Write Err Op α}
    (hm : (s.put i t).sessions[m]? = some x) :
    (m = i ∧ x = t) ∨ (m ≠ i ∧ s.sessions[m]? = some x) := by
  by_cases hmi : i = m
  · subst hmi
    have hlt : i < s.sessions.length := by
      have := List.getElem?_eq_some_iff.mp hm
      simpa [Sys.put] using this.1
    rw [Sys.put, List.getElem?_set_self hlt] at hm
    exact Or.inl ⟨rfl, (Option.some.inj hm).symm⟩
  · rw [Sys.put, List.getElem?_set_ne hmi] at hm
    exact Or.inr ⟨fun h => hmi h.symm, hm⟩

/-- A session after one was launched is that one or one of those before. -/
theorem getElem?_launch {ss : List (Session Stmt Resp Write Err Op α)} {m : ℕ}
    {t x : Session Stmt Resp Write Err Op α} (hm : (ss ++ [t])[m]? = some x) :
    ss[m]? = some x ∨ x = t := by
  rw [List.getElem?_append] at hm
  split at hm
  · exact Or.inl hm
  · exact Or.inr (List.mem_singleton.mp (List.mem_of_getElem? hm))

/-- Replacing session `i` keeps the invariant when the new session meets its
specification and its writes stay clear of the others. -/
theorem Sessions.put {i : ℕ} {t : Session Stmt Resp Write Err Op α} (h : Sessions E G R Q s)
    (hcomm : ∀ w w', E.conflicts w w' = E.conflicts w' w)
    (hens : ∀ op p tx, t = .running op p tx →
      p.Ensures E R (fun tx q v => G.stmt op tx q v = true) (Q op) tx s.db)
    (hapart : ∀ j u, j ≠ i → s.sessions[j]? = some u →
      ∀ w ∈ u.held, ∀ w' ∈ t.held, E.conflicts w w' = false) :
    Sessions E G R Q (s.put i t) where
  ensures j op p tx hj := by
    rcases Sys.getElem?_put hj with ⟨-, ht⟩ | ⟨-, hj'⟩
    · exact hens op p tx ht.symm
    · exact h.ensures j op p tx hj'
  apart j k u v hjk hj hk := by
    rcases Sys.getElem?_put hj with ⟨hji, rfl⟩ | ⟨hji, hj'⟩
    · rcases Sys.getElem?_put hk with ⟨hki, rfl⟩ | ⟨hki, hk'⟩
      · exact absurd (hji.trans hki.symm) hjk
      · intro w hw w' hw'
        rw [hcomm]
        exact hapart k v hki hk' w' hw' w hw
    · rcases Sys.getElem?_put hk with ⟨hki, rfl⟩ | ⟨hki, hk'⟩
      · exact hapart j u hji hj'
      · exact h.apart j k u v hjk hj' hk'

/-- What is not blocked is clear of the writes of the other sessions. -/
theorem clear_of_not_blocked {i : ℕ} {ws : List Write} (h : s.blocked E i ws = false)
    {j : ℕ} {u : Session Stmt Resp Write Err Op α} (hji : j ≠ i)
    (hj : s.sessions[j]? = some u) : ∀ w ∈ u.held, ∀ w' ∈ ws, E.conflicts w w' = false := by
  intro w hw w' hw'
  rw [Sys.blocked, List.any_eq_false] at h
  have hmem : (u, j) ∈ s.sessions.zipIdx := List.mk_mem_zipIdx_iff_getElem?.mpr hj
  have hno := h (u, j) hmem
  by_contra hc
  apply hno
  simp only [Bool.and_eq_true, bne_iff_ne, ne_eq, List.any_eq_true]
  exact ⟨hji, w, hw, w', hw', by simpa using hc⟩

/-- Every move keeps the invariant of the sessions. -/
theorem Sessions.move (hRG : RelyGuarantee E program G R Q) (h : Sessions E G R Q s)
    (hm : Move E program G s s') : Sessions E G R Q s' := by
  cases hm with
  | launch op hl =>
      constructor
      · intro i op' p tx hi
        rcases getElem?_launch hi with hi | hi
        · exact h.ensures i op' p tx hi
        · cases hi
          exact hRG.launch op hl s.db
      · intro i j t u hij hi hj
        rcases getElem?_launch hi with hi | rfl
        · rcases getElem?_launch hj with hj | rfl
          · exact h.apart i j t u hij hi hj
          · intro w _ w' hw'
            simp [Session.held] at hw'
        · intro w hw
          simp [Session.held] at hw
  | tick d => exact ⟨h.ensures, h.apart⟩
  | stop i op p tx e hi =>
      refine h.put hRG.conflicts_comm (fun _ _ _ hc => by cases hc) ?_
      intro j u _ _ w _ w' hw'
      simp [Session.held] at hw'
  | draw i op k tx hi =>
      have hput : Sessions E G R Q (s.put i (.running op (k s.nextId) tx)) := by
        refine h.put hRG.conflicts_comm ?_ ?_
        · intro op' p' tx' hc
          cases hc
          exact h.ensures i op _ tx hi s.nextId
        · intro j u hji hj
          exact h.apart j i u (.running op (.draw k) tx) hji hj hi
      exact ⟨hput.ensures, hput.apart⟩
  | clock i op k tx hi =>
      refine h.put hRG.conflicts_comm ?_ ?_
      · intro op' p' tx' hc
        cases hc
        exact h.ensures i op _ tx hi s.now
      · intro j u hji hj
        exact h.apart j i u (.running op (.clock k) tx) hji hj hi
  | stmt i op q refused k tx r ws hi hg he hb =>
      refine h.put hRG.conflicts_comm ?_ ?_
      · intro op' p' tx' hc
        cases hc
        exact h.ensures i op _ tx hi s.db (hRG.refl _ _) hg r ws he
      · intro j u hji hj w hw w' hw'
        rcases List.mem_append.mp hw' with hw' | hw'
        · exact h.apart j i u _ hji hj hi w hw w' hw'
        · exact clear_of_not_blocked hb hji hj w hw w' hw'
  | commit i op a tx hi =>
      -- the committed tables move: every other session survives by its rely
      have hput : Sessions E G R Q (s.put i (.committed op a)) := by
        refine h.put hRG.conflicts_comm (fun _ _ _ hc => by cases hc) ?_
        intro j u _ _ w _ w' hw'
        simp [Session.held] at hw'
      refine ⟨fun j op' p' tx' hj => ?_, hput.apart⟩
      have hQ : Q op a tx s.db := h.ensures i op _ tx hi s.db (hRG.refl _ _)
      rcases Sys.getElem?_put hj with ⟨-, ht⟩ | ⟨hji, hj'⟩
      · cases ht
      · refine (h.ensures j op' p' tx' hj').stable hRG.trans ?_
        exact hRG.commit op a tx s.db tx'.writes hQ
          (h.apart i j _ _ (Ne.symm hji) hi hj')

theorem Reachable.sessions (hRG : RelyGuarantee E program G R Q) (hinit : init.sessions = [])
    (h : Reachable E program G init s) : Sessions E G R Q s := by
  induction h with
  | init => exact ⟨fun i op p tx hi => by simp [hinit] at hi, fun i j t u _ hi => by simp [hinit] at hi⟩
  | step l _ hall hstep ih => exact ih.move hRG (move_of_step hall hstep)

/-- Only operations that may be launched run. -/
theorem Reachable.launched (hinit : init.sessions = []) (h : Reachable E program G init s) :
    ∀ (i : ℕ) (op : Op) (p : Prog Stmt Resp Err α) (tx : Tx Stmt Resp Write),
      s.sessions[i]? = some (.running op p tx) → G.launch op = true := by
  induction h with
  | init =>
      intro i op p tx hi
      simp [hinit] at hi
  | @step s₁ s₂ l _ hall hstep ih =>
      have hset : ∀ (i : ℕ) (t : Session Stmt Resp Write Err Op α),
          (∀ op p tx, t = .running op p tx → G.launch op = true) →
          ∀ (j : ℕ) (op : Op) (p : Prog Stmt Resp Err α) (tx : Tx Stmt Resp Write),
            (s₁.put i t).sessions[j]? = some (.running op p tx) → G.launch op = true := by
        intro i t ht j op p tx hj
        rcases Sys.getElem?_put hj with ⟨-, heq⟩ | ⟨-, hj'⟩
        · exact ht op p tx heq.symm
        · exact ih j op p tx hj'
      cases move_of_step hall hstep with
      | launch op hl =>
          intro i op' p tx hi
          rcases getElem?_launch hi with hi | hi
          · exact ih i op' p tx hi
          · cases hi
            exact hl
      | tick d => exact ih
      -- a session that ended runs nothing
      | stop i op p tx e hi => exact hset i _ fun _ _ _ hc => by cases hc
      | commit i op a tx hi => exact hset i _ fun _ _ _ hc => by cases hc
      -- one that moved on runs the operation it was launched with
      | draw i op k tx hi =>
          refine hset i _ fun op' p' tx' hc => ?_
          cases hc
          exact ih i op _ tx hi
      | clock i op k tx hi =>
          refine hset i _ fun op' p' tx' hc => ?_
          cases hc
          exact ih i op _ tx hi
      | stmt i op q refused k tx r ws hi hg he hb =>
          refine hset i _ fun op' p' tx' hc => ?_
          cases hc
          exact ih i op _ tx hi

/-- A property of the committed tables and the log holds in every reachable
state when it holds at the start and every commit that keeps its promise
preserves it. -/
theorem Reachable.log_induction {P : Db → List (Commit Db Stmt Resp Write Op α) → Prop}
    (hRG : RelyGuarantee E program G R Q) (hinit : init.sessions = [])
    (hstart : P init.db init.log)
    (hcommit : ∀ db log i op a tx, P db log → G.launch op = true → Q op a tx db →
      P (E.applyAll db tx.writes) (log ++ [⟨i, op, a, tx, db⟩]))
    (h : Reachable E program G init s) : P s.db s.log := by
  induction h with
  | init => exact hstart
  | @step s₁ s₂ l hs hall hstep ih =>
      cases move_of_step hall hstep with
      | launch op hl => exact ih
      | tick d => exact ih
      | stop i op p tx e hi => exact ih
      | draw i op k tx hi => exact ih
      | clock i op k tx hi => exact ih
      | stmt i op q refused k tx r ws hi hg he hb => exact ih
      -- only a commit moves the tables and the log, and its promise holds there
      | commit i op a tx hi =>
          have hlaunched : G.launch op = true := hs.launched hinit i op _ tx hi
          have hQ : Q op a tx s₁.db :=
            (hs.sessions hRG hinit).ensures i op _ tx hi s₁.db (hRG.refl _ _)
          exact hcommit _ _ i op a tx ih hlaunched hQ

end Soundness

end Txn
