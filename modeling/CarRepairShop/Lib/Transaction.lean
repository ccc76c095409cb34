import Mathlib.Data.Nat.Notation
import Mathlib.Logic.Basic

/-! # Transactions as programs over statements

A unit of work is a program (`Prog`) that issues one statement at a time to a
database engine and decides from each answer what to do next. The engine
(`Engine`) says what one statement answers and which writes it makes; it is a
parameter, as are the tables, the statements and the errors.

The same program has two meanings:

* `Prog.run` executes it alone, from its first statement to its commit;
* `Prog.Ensures` is its rely–guarantee specification, for the case where
  other transactions commit between its statements. Under READ COMMITTED
  every statement sees the latest committed data together with the
  transaction's own writes (`Engine.view`); what the others may have changed
  meanwhile is the relation `R`, and what is promised at the commit is `Q`.

`run_ensures` connects the two: whatever holds under interference holds when
the program runs alone.
-/

namespace Txn

/-- A unit of work as its client issues it. `draw` is a new identifier,
`clock` the current time. `stmt s refused k` issues `s` and goes on with its
answer; a statement the database refuses ends the unit of work, with the
error that `refused` makes of the database's own. -/
inductive Prog (Stmt : Type) (Resp : Stmt → Type) (Err : Type) (α : Type) : Type where
  | pure (a : α)
  | throw (e : Err)
  | draw (k : ℕ → Prog Stmt Resp Err α)
  | clock (k : ℕ → Prog Stmt Resp Err α)
  | stmt (s : Stmt) (refused : Err → Err) (k : Resp s → Prog Stmt Resp Err α)

variable {Db Stmt Write Err : Type} {Resp : Stmt → Type} {α β : Type}

namespace Prog

/-- Sequential composition. -/
def bind : Prog Stmt Resp Err α → (α → Prog Stmt Resp Err β) → Prog Stmt Resp Err β
  | .pure a, f => f a
  | .throw e, _ => .throw e
  | .draw k, f => .draw fun n => (k n).bind f
  | .clock k, f => .clock fun n => (k n).bind f
  | .stmt s refused k, f => .stmt s refused fun r => (k r).bind f

instance : Monad (Prog Stmt Resp Err) where
  pure := .pure
  bind := bind

/-- Issues a statement; an error of the database is passed on as it is. -/
def query (s : Stmt) : Prog Stmt Resp Err (Resp s) := .stmt s id .pure

/-- Issues a statement and translates the error of the database. -/
def queryOr (s : Stmt) (refused : Err → Err) : Prog Stmt Resp Err (Resp s) :=
  .stmt s refused .pure

/-- Draws a new identifier. -/
def fresh : Prog Stmt Resp Err ℕ := .draw .pure

/-- Reads the clock. -/
def now : Prog Stmt Resp Err ℕ := .clock .pure

/-- Runs `f` on every element in turn and collects the answers. -/
def each (f : α → Prog Stmt Resp Err β) : List α → Prog Stmt Resp Err (List β)
  | [] => .pure []
  | x :: xs => do
      let y ← f x
      let ys ← each f xs
      .pure (y :: ys)

@[simp] theorem pure_bind (a : α) (f : α → Prog Stmt Resp Err β) :
    (Prog.pure a >>= f) = f a := rfl

@[simp] theorem pure_bind' (a : α) (f : α → Prog Stmt Resp Err β) :
    ((Pure.pure a : Prog Stmt Resp Err α) >>= f) = f a := rfl

@[simp] theorem throw_bind (e : Err) (f : α → Prog Stmt Resp Err β) :
    ((Prog.throw e : Prog Stmt Resp Err α) >>= f) = .throw e := rfl

end Prog

/-- What a transaction did so far: the statements it issued with their
answers, oldest first, and the writes it holds until it ends. -/
structure Tx (Stmt : Type) (Resp : Stmt → Type) (Write : Type) where
  trace : List (Σ s : Stmt, Resp s) := []
  writes : List Write := []

/-- The transaction after one more statement. -/
def Tx.record (tx : Tx Stmt Resp Write) (s : Stmt) (r : Resp s) (ws : List Write) :
    Tx Stmt Resp Write where
  trace := tx.trace ++ [⟨s, r⟩]
  writes := tx.writes ++ ws

@[simp] theorem Tx.record_writes (tx : Tx Stmt Resp Write) (s : Stmt) (r : Resp s)
    (ws : List Write) : (tx.record s r ws).writes = tx.writes ++ ws := rfl

@[simp] theorem Tx.record_trace (tx : Tx Stmt Resp Write) (s : Stmt) (r : Resp s)
    (ws : List Write) : (tx.record s r ws).trace = tx.trace ++ [⟨s, r⟩] := rfl

/-- A database engine: `exec` answers a statement on the tables it sees, with
the writes the statement makes; `apply` performs a write; of two conflicting
writes the second waits until the transaction of the first has ended. -/
structure Engine (Db Stmt : Type) (Resp : Stmt → Type) (Write Err : Type) where
  exec : (s : Stmt) → Db → Except Err (Resp s × List Write)
  apply : Db → Write → Db
  conflicts : Write → Write → Bool

namespace Engine

variable (E : Engine Db Stmt Resp Write Err)

/-- Performs writes in order. -/
def applyAll (db : Db) (ws : List Write) : Db := ws.foldl E.apply db

/-- What a statement of the transaction sees: the committed tables and the
transaction's own writes. -/
def view (tx : Tx Stmt Resp Write) (db : Db) : Db := E.applyAll db tx.writes

@[simp] theorem applyAll_nil (db : Db) : E.applyAll db [] = db := rfl

@[simp] theorem applyAll_cons (db : Db) (w : Write) (ws : List Write) :
    E.applyAll db (w :: ws) = E.applyAll (E.apply db w) ws := rfl

@[simp] theorem applyAll_append (db : Db) (ws ws' : List Write) :
    E.applyAll db (ws ++ ws') = E.applyAll (E.applyAll db ws) ws' :=
  List.foldl_append

/-- What is seen after a statement is what was seen before, with its writes. -/
theorem view_record (tx : Tx Stmt Resp Write) (s : Stmt) (r : Resp s) (ws : List Write)
    (db : Db) : E.view (tx.record s r ws) db = E.applyAll (E.view tx db) ws :=
  E.applyAll_append db tx.writes ws

end Engine

/-! ## Running alone -/

/-- How a unit of work that ran to its end leaves off. -/
structure Finished (Stmt : Type) (Resp : Stmt → Type) (Write : Type) (α : Type) where
  value : α
  tx : Tx Stmt Resp Write
  nextId : ℕ

namespace Prog

variable (E : Engine Db Stmt Resp Write Err)

/-- Runs a unit of work alone on the committed tables `db`, at time `now` and
with `nextId` as the first unused identifier. -/
def run (now : ℕ) (db : Db) : Prog Stmt Resp Err α → ℕ → Tx Stmt Resp Write →
    Except Err (Finished Stmt Resp Write α)
  | .pure a, nextId, tx => .ok ⟨a, tx, nextId⟩
  | .throw e, _, _ => .error e
  | .draw k, nextId, tx => run now db (k nextId) (nextId + 1) tx
  | .clock k, nextId, tx => run now db (k now) nextId tx
  | .stmt s refused k, nextId, tx =>
      match E.exec s (E.view tx db) with
      | .error e => .error (refused e)
      | .ok (r, ws) => run now db (k r) nextId (tx.record s r ws)

end Prog

/-! ## Interference

A relation `R` that bounds what the others do while a unit of work holds some
writes. -/

section Interference

variable {R : List Write → Db → Db → Prop}

/-- `R` is a preorder for each list of held writes, and holding more writes
leaves the others less to do. -/
structure Interference (R : List Write → Db → Db → Prop) : Prop where
  refl : ∀ ws db, R ws db db
  trans : ∀ ws a b c, R ws a b → R ws b c → R ws a c
  held : ∀ ws ws' a b, R (ws ++ ws') a b → R ws a b

/-- `P` held of the committed tables at some moment, since when only the
others acted. -/
def Was (R : List Write → Db → Db → Prop) (P : Db → Prop) (db : Db) : Prop :=
  ∃ d, R [] d db ∧ P d

theorem Was.now (hR : Interference R) {P : Db → Prop} {db : Db} (h : P db) : Was R P db :=
  ⟨db, hR.refl _ _, h⟩

theorem Was.stable (hR : Interference R) {P : Db → Prop} {ws : List Write} {db db' : Db}
    (h : Was R P db) (hR' : R ws db db') : Was R P db' := by
  rcases h with ⟨d, hd, hP⟩
  exact ⟨d, hR.trans _ _ _ _ hd (hR.held [] ws _ _ hR'), hP⟩

theorem Was.imp {P P' : Db → Prop} {db : Db} (h : Was R P db) (himp : ∀ d, P d → P' d) :
    Was R P' db := by
  rcases h with ⟨d, hd, hP⟩
  exact ⟨d, hd, himp d hP⟩

/-- A unit of work alone is interfered with by nobody. -/
theorem Interference.alone : Interference (fun (_ : List Write) (a b : Db) => a = b) where
  refl _ _ := rfl
  trans _ _ _ _ := Eq.trans
  held _ _ _ _ h := h

theorem was_alone {P : Db → Prop} {db : Db} :
    Was (fun (_ : List Write) (a b : Db) => a = b) P db ↔ P db :=
  ⟨fun ⟨_, heq, hP⟩ => heq ▸ hP, fun h => ⟨db, rfl, h⟩⟩

end Interference

/-! ## Running among others -/

namespace Prog

variable (E : Engine Db Stmt Resp Write Err)

/-- The rely–guarantee specification of a unit of work that has done `tx` and
whose last statement saw `db`. Before every statement, and before the commit,
the others may take the committed tables from `db` to any `db'` with
`R writes db db'`, where `writes` are those this transaction holds. `G` is
what is assumed of the steps it takes itself: the transaction so far, the
statement, and the tables it is about to see. `Q` is due at the commit, of the
committed tables just before it. -/
def Ensures (R : List Write → Db → Db → Prop) (G : Tx Stmt Resp Write → Stmt → Db → Prop)
    (Q : α → Tx Stmt Resp Write → Db → Prop) :
    Prog Stmt Resp Err α → Tx Stmt Resp Write → Db → Prop
  | .pure a, tx, db => ∀ db', R tx.writes db db' → Q a tx db'
  | .throw _, _, _ => True
  | .draw k, tx, db => ∀ n, Ensures R G Q (k n) tx db
  | .clock k, tx, db => ∀ n, Ensures R G Q (k n) tx db
  | .stmt s _ k, tx, db =>
      ∀ db', R tx.writes db db' → G tx s (E.view tx db') →
        ∀ r ws, E.exec s (E.view tx db') = .ok (r, ws) →
          Ensures R G Q (k r) (tx.record s r ws) db'

variable {E} {R R' : List Write → Db → Db → Prop} {G G' : Tx Stmt Resp Write → Stmt → Db → Prop}
variable {Q Q' : α → Tx Stmt Resp Write → Db → Prop}

/-- A specification survives what the others do. -/
theorem Ensures.stable (htrans : ∀ ws a b c, R ws a b → R ws b c → R ws a c)
    {p : Prog Stmt Resp Err α} {tx : Tx Stmt Resp Write} {db db' : Db}
    (h : p.Ensures E R G Q tx db) (hR : R tx.writes db db') : p.Ensures E R G Q tx db' := by
  induction p generalizing tx with
  | pure a => exact fun db'' h' => h db'' (htrans _ _ _ _ hR h')
  | throw e => trivial
  | draw k ih => exact fun n => ih n (h n) hR
  | clock k ih => exact fun n => ih n (h n) hR
  | stmt s refused k ih => exact fun db'' h' => h db'' (htrans _ _ _ _ hR h')

/-- A weaker promise, under fewer interferences and more assumptions. -/
theorem Ensures.mono (hR : ∀ ws a b, R' ws a b → R ws a b)
    (hG : ∀ tx s db, G' tx s db → G tx s db) (hQ : ∀ a tx db, Q a tx db → Q' a tx db)
    {p : Prog Stmt Resp Err α} {tx : Tx Stmt Resp Write} {db : Db}
    (h : p.Ensures E R G Q tx db) : p.Ensures E R' G' Q' tx db := by
  induction p generalizing tx db with
  | pure a => exact fun db' h' => hQ _ _ _ (h db' (hR _ _ _ h'))
  | throw e => trivial
  | draw k ih => exact fun n => ih n (h n)
  | clock k ih => exact fun n => ih n (h n)
  | stmt s refused k ih =>
      exact fun db' h' hg r ws he => ih r (h db' (hR _ _ _ h') (hG _ _ _ hg) r ws he)

theorem Ensures.post (hQ : ∀ a tx db, Q a tx db → Q' a tx db)
    {p : Prog Stmt Resp Err α} {tx : Tx Stmt Resp Write} {db : Db}
    (h : p.Ensures E R G Q tx db) : p.Ensures E R G Q' tx db :=
  h.mono (fun _ _ _ h => h) (fun _ _ _ h => h) hQ

/-- Two promises of one program can be made together. -/
theorem Ensures.and {p : Prog Stmt Resp Err α} {tx : Tx Stmt Resp Write} {db : Db}
    (h : p.Ensures E R G Q tx db) (h' : p.Ensures E R G Q' tx db) :
    p.Ensures E R G (fun a tx db => Q a tx db ∧ Q' a tx db) tx db := by
  induction p generalizing tx db with
  | pure a => exact fun db' hR => ⟨h db' hR, h' db' hR⟩
  | throw e => trivial
  | draw k ih => exact fun n => ih n (h n) (h' n)
  | clock k ih => exact fun n => ih n (h n) (h' n)
  | stmt s refused k ih =>
      exact fun db' hR hg r ws he => ih r (h db' hR hg r ws he) (h' db' hR hg r ws he)

/-- The sequencing rule: the first part has to end in a state from which the
second part meets the specification. -/
theorem Ensures.bind {p : Prog Stmt Resp Err α} {f : α → Prog Stmt Resp Err β}
    {Q : β → Tx Stmt Resp Write → Db → Prop} (hrefl : ∀ ws db, R ws db db)
    {tx : Tx Stmt Resp Write} {db : Db}
    (h : p.Ensures E R G (fun a tx db => (f a).Ensures E R G Q tx db) tx db) :
    (p >>= f).Ensures E R G Q tx db := by
  change (p.bind f).Ensures E R G Q tx db
  induction p generalizing tx db with
  | pure a => exact h db (hrefl _ _)
  | throw e => trivial
  | draw k ih => exact fun n => ih n (h n)
  | clock k ih => exact fun n => ih n (h n)
  | stmt s refused k ih => exact fun db' hR hg r ws he => ih r (h db' hR hg r ws he)

/-! ### Rules

The rules that proofs about units of work use: one part after the other
(`Ensures.seq`) and loops (`Ensures.each`). One statement at a time is the
definition itself. -/

/-- What the others did while a unit of work ran respects the writes it held
from the start. -/
theorem Ensures.since (hR : Interference R) {p : Prog Stmt Resp Err α}
    {tx : Tx Stmt Resp Write} {db : Db} (h : p.Ensures E R G Q tx db) :
    p.Ensures E R G (fun a tx' db' => Q a tx' db' ∧ R tx.writes db db') tx db := by
  suffices hall : ∀ (tx' : Tx Stmt Resp Write) (db' : Db), (∃ ws, tx'.writes = tx.writes ++ ws) →
      R tx.writes db db' → p.Ensures E R G Q tx' db' →
        p.Ensures E R G (fun a tx'' db'' => Q a tx'' db'' ∧ R tx.writes db db'') tx' db' from
    hall tx db ⟨[], by simp⟩ (hR.refl _ _) h
  clear h
  induction p with
  | pure a =>
      intro tx' db' ⟨ws, hws⟩ hsince h db'' hR'
      refine ⟨h db'' hR', hR.trans _ _ _ _ hsince ?_⟩
      rw [hws] at hR'
      exact hR.held _ _ _ _ hR'
  | throw e => exact fun _ _ _ _ _ => trivial
  | draw k ih => exact fun tx' db' hws hsince h n => ih n tx' db' hws hsince (h n)
  | clock k ih => exact fun tx' db' hws hsince h n => ih n tx' db' hws hsince (h n)
  | stmt s refused k ih =>
      intro tx' db' ⟨ws, hws⟩ hsince h db'' hR' hg r new he
      refine ih r _ db'' ⟨ws ++ new, ?_⟩ ?_ (h db'' hR' hg r new he)
      · rw [Tx.record_writes, hws, List.append_assoc]
      · rw [hws] at hR'
        exact hR.trans _ _ _ _ hsince (hR.held _ _ _ _ hR')

/-- The sequencing rule, with what the others did during the first part. -/
theorem Ensures.seq (hR : Interference R) {P : α → Tx Stmt Resp Write → Db → Prop}
    {Q : β → Tx Stmt Resp Write → Db → Prop} {p : Prog Stmt Resp Err α}
    {f : α → Prog Stmt Resp Err β} {tx : Tx Stmt Resp Write} {db : Db}
    (hp : p.Ensures E R G P tx db)
    (hf : ∀ a tx' db', P a tx' db' → R tx.writes db db' → (f a).Ensures E R G Q tx' db') :
    (p >>= f).Ensures E R G Q tx db :=
  Ensures.bind hR.refl ((hp.since hR).post fun a tx' db' h => hf a tx' db' h.1 h.2)

/-- A promise kept at the commit is kept whatever the others still do. -/
theorem Ensures.closed (hR : Interference R) {p : Prog Stmt Resp Err α} {tx : Tx Stmt Resp Write}
    {db : Db} (h : p.Ensures E R G Q tx db) :
    p.Ensures E R G (fun a tx' db' => ∀ db'', R tx'.writes db' db'' → Q a tx' db'') tx db := by
  induction p generalizing tx db with
  | pure a => exact fun db' h₁ db'' h₂ => h db'' (hR.trans _ _ _ _ h₁ h₂)
  | throw e => trivial
  | draw k ih => exact fun n => ih n (h n)
  | clock k ih => exact fun n => ih n (h n)
  | stmt s refused k ih => exact fun db' hR' hg r ws he => ih r (h db' hR' hg r ws he)

/-- The result of a unit of work, mapped. -/
theorem Ensures.map (hR : Interference R) {f : α → β} {Q : β → Tx Stmt Resp Write → Db → Prop}
    {p : Prog Stmt Resp Err α} {tx : Tx Stmt Resp Write} {db : Db}
    (h : p.Ensures E R G (fun a tx db => Q (f a) tx db) tx db) :
    (p >>= fun a => Prog.pure (f a)).Ensures E R G Q tx db :=
  Ensures.bind hR.refl (h.closed hR)

/-- The loop rule: `I` speaks of the elements done and their results. -/
theorem Ensures.each (hR : Interference R) {f : α → Prog Stmt Resp Err β}
    {I : List α → List β → Tx Stmt Resp Write → Db → Prop}
    (hstable : ∀ done out tx db db', I done out tx db → R tx.writes db db' → I done out tx db')
    (hstep : ∀ done out x tx db, I done out tx db →
      (f x).Ensures E R G (fun y tx' db' => I (done ++ [x]) (out ++ [y]) tx' db') tx db)
    (xs : List α) {tx : Tx Stmt Resp Write} {db : Db} (h : I [] [] tx db) :
    (Prog.each f xs).Ensures E R G (fun ys tx' db' => I xs ys tx' db') tx db := by
  suffices hall : ∀ (xs done : List α) (out : List β) (tx : Tx Stmt Resp Write) (db : Db),
      I done out tx db →
        (Prog.each f xs).Ensures E R G (fun ys tx' db' => I (done ++ xs) (out ++ ys) tx' db') tx db by
    simpa using hall xs [] [] tx db h
  clear h tx db xs
  intro xs
  induction xs with
  | nil =>
      intro done out tx db h db' hR'
      simpa using hstable _ _ _ _ _ h hR'
  | cons x xs ih =>
      intro done out tx db h
      refine Ensures.seq hR (hstep done out x tx db h) fun y tx' db' hy _ => ?_
      refine Ensures.seq hR (ih (done ++ [x]) (out ++ [y]) tx' db' hy) fun ys tx'' db'' hys _ => ?_
      intro db₃ hR₃
      have hfin := hstable _ _ _ _ _ hys hR₃
      simpa using hfin

/-! ### Frames -/

/-- Every statement the unit of work can issue satisfies `P`, whatever the
answers. -/
def Issues (P : Stmt → Prop) : Prog Stmt Resp Err α → Prop
  | .pure _ => True
  | .throw _ => True
  | .draw k => ∀ n, Issues P (k n)
  | .clock k => ∀ n, Issues P (k n)
  | .stmt s _ k => P s ∧ ∀ r, Issues P (k r)

theorem Issues.mono {P P' : Stmt → Prop} (hP : ∀ s, P s → P' s) {p : Prog Stmt Resp Err α}
    (h : p.Issues P) : p.Issues P' := by
  induction p with
  | pure a => trivial
  | throw e => trivial
  | draw k ih => exact fun n => ih n (h n)
  | clock k ih => exact fun n => ih n (h n)
  | stmt s refused k ih => exact ⟨hP s h.1, fun r => ih r (h.2 r)⟩

theorem Issues.bind {P : Stmt → Prop} {p : Prog Stmt Resp Err α} {f : α → Prog Stmt Resp Err β}
    (hp : p.Issues P) (hf : ∀ a, (f a).Issues P) : (p >>= f).Issues P := by
  change (p.bind f).Issues P
  induction p with
  | pure a => exact hf a
  | throw e => trivial
  | draw k ih => exact fun n => ih n (hp n)
  | clock k ih => exact fun n => ih n (hp n)
  | stmt s refused k ih => exact ⟨hp.1, fun r => ih r (hp.2 r)⟩

theorem Issues.each {P : Stmt → Prop} {f : α → Prog Stmt Resp Err β} (hf : ∀ a, (f a).Issues P)
    (xs : List α) : (Prog.each f xs).Issues P := by
  induction xs with
  | nil => trivial
  | cons x xs ih => exact (hf x).bind fun _ => ih.bind fun _ => trivial

/-- The frame rule: what every statement of a kind preserves, a unit of work
that issues only such statements preserves. -/
theorem Issues.ensures {P : Stmt → Prop} {I : Tx Stmt Resp Write → Prop}
    (hI : ∀ s v r ws tx, P s → E.exec s v = .ok (r, ws) → I tx → I (tx.record s r ws))
    {p : Prog Stmt Resp Err α} (hp : p.Issues P) {tx : Tx Stmt Resp Write} {db : Db} (h : I tx) :
    p.Ensures E R G (fun _ tx' _ => I tx') tx db := by
  induction p generalizing tx db with
  | pure a => exact fun db' _ => h
  | throw e => trivial
  | draw k ih => exact fun n => ih n (hp n) h
  | clock k ih => exact fun n => ih n (hp n) h
  | stmt s refused k ih =>
      exact fun db' _ _ r ws he => ih r (hp.2 r) (hI s _ r ws tx hp.1 he h)

/-- A unit of work that ran alone keeps the promise it makes among others. -/
theorem run_ensures (hrefl : ∀ ws db, R ws db db) (hG : ∀ tx s db, G tx s db)
    {now : ℕ} {db : Db} {p : Prog Stmt Resp Err α} {nextId : ℕ} {tx : Tx Stmt Resp Write}
    {fin : Finished Stmt Resp Write α} (h : p.Ensures E R G Q tx db)
    (hrun : p.run E now db nextId tx = .ok fin) : Q fin.value fin.tx db := by
  induction p generalizing nextId tx with
  | pure a =>
      cases hrun
      exact h db (hrefl _ _)
  | throw e => cases hrun
  | draw k ih => exact ih nextId (h nextId) hrun
  | clock k ih => exact ih now (h now) hrun
  | stmt s refused k ih =>
      simp only [run] at hrun
      cases he : E.exec s (E.view tx db) with
      | error e => simp [he] at hrun
      | ok q =>
          rw [he] at hrun
          exact ih q.1 (h db (hrefl _ _) (hG _ _ _) q.1 q.2 he) hrun

end Prog

end Txn
