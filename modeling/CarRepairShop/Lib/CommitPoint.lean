import CarRepairShop.Lib.WaitsFor

/-! # Units of work as of their commit

A unit of work whose statements are executed at different moments, with commits
of others in between, may have seen tables that never existed. It has not when
it holds what each statement read from that statement on: then it did what it
would have done alone on the tables just before its commit (`Prog.Replays`).

`Prog.Locks` is that discipline, checked on the program: an answer is stable
under what the others may do, or it leads to an end that is not asked about.
`Locks.ensures` is the theorem, strict two-phase locking for rely–guarantee
specifications. Reads that are not locked but checked again later are handled
by the sequencing rules of `Ensures` and `Replays`.
-/

namespace Txn.Prog

variable {Db Stmt Write Err α β : Type} {Resp : Stmt → Type}
variable (E : Engine Db Stmt Resp Write Err)

/-- Run alone on the tables `db` while holding `ws`, the unit of work returns
`a` and then holds `ws'`, for some identifiers drawn and some readings of the
clock. -/
def Replays (db : Db) :
    Prog Stmt Resp Err α → List Write → α → List Write → Prop
  | .pure b, ws, a, ws' => b = a ∧ ws = ws'
  | .throw _, _, _, _ => False
  | .draw k, ws, a, ws' => ∃ n, Replays db (k n) ws a ws'
  | .clock k, ws, a, ws' => ∃ n, Replays db (k n) ws a ws'
  | .stmt s _ k, ws, a, ws' =>
      ∃ r new, E.exec s (E.applyAll db ws) = .ok (r, new) ∧ Replays db (k r) (ws ++ new) a ws'

variable {E} {db : Db} {ws ws₁ ws' : List Write}

theorem Replays.bind {p : Prog Stmt Resp Err α} {f : α → Prog Stmt Resp Err β} {a : α} {b : β}
    (hp : p.Replays E db ws a ws₁) (hf : (f a).Replays E db ws₁ b ws') :
    (p >>= f).Replays E db ws b ws' := by
  change (p.bind f).Replays E db ws b ws'
  induction p generalizing ws with
  | pure a' =>
      rcases hp with ⟨rfl, rfl⟩
      exact hf
  | throw e => exact hp.elim
  | draw k ih =>
      rcases hp with ⟨n, hn⟩
      exact ⟨n, ih n hn⟩
  | clock k ih =>
      rcases hp with ⟨n, hn⟩
      exact ⟨n, ih n hn⟩
  | stmt s refused k ih =>
      rcases hp with ⟨r, new, he, hr⟩
      exact ⟨r, new, he, ih r hr⟩

/-- The two parts of a unit of work that was replayed. -/
theorem Replays.parts {p : Prog Stmt Resp Err α} {f : α → Prog Stmt Resp Err β} {b : β}
    (h : (p >>= f).Replays E db ws b ws') :
    ∃ a ws₁, p.Replays E db ws a ws₁ ∧ (f a).Replays E db ws₁ b ws' := by
  change (p.bind f).Replays E db ws b ws' at h
  induction p generalizing ws with
  | pure a => exact ⟨a, ws, ⟨rfl, rfl⟩, h⟩
  | throw e => exact h.elim
  | draw k ih =>
      rcases h with ⟨n, hn⟩
      rcases ih n hn with ⟨a, ws₁, hp, hf⟩
      exact ⟨a, ws₁, ⟨n, hp⟩, hf⟩
  | clock k ih =>
      rcases h with ⟨n, hn⟩
      rcases ih n hn with ⟨a, ws₁, hp, hf⟩
      exact ⟨a, ws₁, ⟨n, hp⟩, hf⟩
  | stmt s refused k ih =>
      rcases h with ⟨r, new, he, hr⟩
      rcases ih r hr with ⟨a, ws₁, hp, hf⟩
      exact ⟨a, ws₁, ⟨r, new, he, hp⟩, hf⟩

/-! ## Strict two-phase locking -/

variable (E)

/-- Every answer the unit of work gets while holding `ws` is one it would get
again at its commit, whatever the others do meanwhile, or leads to ends with
`Q₀` only. `M` is what it returns otherwise. -/
def Locks (R : List Write → Db → Db → Prop) (Q₀ M : α → List Write → Prop) :
    Prog Stmt Resp Err α → List Write → Prop
  | .pure a, ws => M a ws
  | .throw _, _ => True
  | .draw k, ws => ∀ n, Locks R Q₀ M (k n) ws
  | .clock k, ws => ∀ n, Locks R Q₀ M (k n) ws
  | .stmt s _ k, ws => ∀ d r new, E.exec s (E.applyAll d ws) = .ok (r, new) →
      (k r).Follows E (fun _ _ => True) Q₀ (ws ++ new) ∨
        (∀ d', R (ws ++ new) d d' → E.exec s (E.applyAll d' ws) = .ok (r, new)) ∧
          Locks R Q₀ M (k r) (ws ++ new)

variable {E} {R : List Write → Db → Db → Prop} {G : Tx Stmt Resp Write → Stmt → Db → Prop}
variable {Q₀ M : α → List Write → Prop}

theorem Locks.mono {Q₀' M' : α → List Write → Prop} (hQ : ∀ a ws, Q₀ a ws → Q₀' a ws)
    (hM : ∀ a ws, M a ws → M' a ws) {p : Prog Stmt Resp Err α} (h : p.Locks E R Q₀ M ws) :
    p.Locks E R Q₀' M' ws := by
  induction p generalizing ws with
  | pure a => exact hM a ws h
  | throw e => trivial
  | draw k ih => exact fun n => ih n (h n)
  | clock k ih => exact fun n => ih n (h n)
  | stmt s refused k ih =>
      intro d r new he
      rcases h d r new he with hend | ⟨hstable, hk⟩
      · exact Or.inl (hend.mono (fun _ _ h => h) hQ)
      · exact Or.inr ⟨hstable, ih r hk⟩

/-- The sequencing rule: an end that was not asked about has to go on to one. -/
theorem Locks.seq {Q₀' M' : β → List Write → Prop} {p : Prog Stmt Resp Err α}
    {f : α → Prog Stmt Resp Err β} (hp : p.Locks E R Q₀ M ws)
    (hQ : ∀ a ws', Q₀ a ws' → (f a).Follows E (fun _ _ => True) Q₀' ws')
    (hf : ∀ a ws', M a ws' → (f a).Locks E R Q₀' M' ws') : (p >>= f).Locks E R Q₀' M' ws := by
  change (p.bind f).Locks E R Q₀' M' ws
  induction p generalizing ws with
  | pure a => exact hf a ws hp
  | throw e => trivial
  | draw k ih => exact fun n => ih n (hp n)
  | clock k ih => exact fun n => ih n (hp n)
  | stmt s refused k ih =>
      intro d r new he
      rcases hp d r new he with hend | ⟨hstable, hk⟩
      · exact Or.inl (hend.seq hQ)
      · exact Or.inr ⟨hstable, ih r hk⟩

/-- The loop rule, for rounds that throw on every end that is not asked about. -/
theorem Locks.each {I : List Write → Prop} {f : α → Prog Stmt Resp Err β}
    (hstep : ∀ x ws, I ws → (f x).Locks E R (fun _ _ => False) (fun _ ws' => I ws') ws)
    (xs : List α) (h : I ws) :
    (Prog.each f xs).Locks E R (fun _ _ => False) (fun _ ws' => I ws') ws := by
  induction xs generalizing ws with
  | nil => exact h
  | cons x xs ih =>
      refine (hstep x ws h).seq (fun _ _ h => h.elim) fun y ws₁ h₁ => ?_
      exact (ih h₁).seq (fun _ _ h => h.elim) fun ys ws₂ h₂ => h₂

/-- Whatever the others do, the ends are those of the program. -/
theorem Follows.ensures {P : List Write → Stmt → Prop} {Q : α → List Write → Prop}
    {p : Prog Stmt Resp Err α} (tx : Tx Stmt Resp Write) (h : p.Follows E P Q tx.writes) (db : Db) :
    p.Ensures E R G (fun a tx' _ => Q a tx'.writes) tx db := by
  induction p generalizing tx db with
  | pure a => exact fun db' _ => h
  | throw e => trivial
  | draw k ih => exact fun n => ih n tx (h n) db
  | clock k ih => exact fun n => ih n tx (h n) db
  | stmt s refused k ih => exact fun db' _ _ r ws he => ih r _ (h.2 _ r ws he) db'

/-- Strict two-phase locking: a unit of work that holds what it reads did what
it would have done alone at its commit. -/
theorem Locks.ensures (hR : Interference R) {p : Prog Stmt Resp Err α} (tx : Tx Stmt Resp Write)
    (h : p.Locks E R Q₀ M tx.writes) (db : Db) :
    p.Ensures E R G (fun a tx' db' => Q₀ a tx'.writes ∨ M a tx'.writes ∧
      ∀ d, R tx'.writes db' d → p.Replays E d tx.writes a tx'.writes) tx db := by
  induction p generalizing tx db with
  | pure a => exact fun db' _ => Or.inr ⟨h, fun d _ => ⟨rfl, rfl⟩⟩
  | throw e => trivial
  | draw k ih =>
      intro n
      refine (ih n tx (h n) db).post ?_
      rintro a tx' db' (hend | ⟨hm, hall⟩)
      · exact Or.inl hend
      · exact Or.inr ⟨hm, fun d hd => ⟨n, hall d hd⟩⟩
  | clock k ih =>
      intro n
      refine (ih n tx (h n) db).post ?_
      rintro a tx' db' (hend | ⟨hm, hall⟩)
      · exact Or.inl hend
      · exact Or.inr ⟨hm, fun d hd => ⟨n, hall d hd⟩⟩
  | stmt s refused k ih =>
      intro db₁ _ _ r new he
      rcases h db₁ r new he with hend | ⟨hstable, hk⟩
      · exact ((Follows.ensures (tx.record s r new) hend db₁).post
          fun a tx' db' hq => Or.inl hq)
      · refine ((ih r (tx.record s r new) hk db₁).since hR).closed hR |>.post ?_
        intro a tx' db' hpost
        rcases (hpost db' (hR.refl _ _)).1 with hend | ⟨hm, hall⟩
        · exact Or.inl hend
        · refine Or.inr ⟨hm, fun d hd => ⟨r, new, ?_, hall d hd⟩⟩
          -- what the statement read is held from then on
          have hsince : R (tx.record s r new).writes db₁ d := (hpost d hd).2
          exact hstable d hsince

/-! ## Repeating -/

/-- The unit of work ensures `Q`, and did what it would have done alone on the
tables at any later moment before its commit. -/
def Repeats (E : Engine Db Stmt Resp Write Err) (R : List Write → Db → Db → Prop)
    (G : Tx Stmt Resp Write → Stmt → Db → Prop) (Q : α → Tx Stmt Resp Write → Prop)
    (p : Prog Stmt Resp Err α) (tx : Tx Stmt Resp Write) (db : Db) : Prop :=
  p.Ensures E R G (fun a tx' db' => Q a tx' ∧
    ∀ d, R tx'.writes db' d → p.Replays E d tx.writes a tx'.writes) tx db

variable {Q : α → Tx Stmt Resp Write → Prop}

theorem Locks.repeats (hR : Interference R) {p : Prog Stmt Resp Err α} {tx : Tx Stmt Resp Write}
    (h : p.Locks E R (fun _ _ => False) M tx.writes) (db : Db) :
    p.Repeats E R G (fun a tx' => M a tx'.writes) tx db := by
  refine (h.ensures hR _ db).post ?_
  rintro a tx' db' (hfalse | hall)
  · exact hfalse.elim
  · exact hall

theorem Repeats.seq (hR : Interference R) {Q' : β → Tx Stmt Resp Write → Prop}
    {p : Prog Stmt Resp Err α} {f : α → Prog Stmt Resp Err β} {tx : Tx Stmt Resp Write} {db : Db}
    (hp : p.Repeats E R G Q tx db)
    (hf : ∀ a tx' db', Q a tx' → (f a).Repeats E R G Q' tx' db') :
    (p >>= f).Repeats E R G Q' tx db := by
  refine Ensures.seq hR hp fun a tx₁ db₁ h₁ _ => ?_
  refine (((hf a tx₁ db₁ h₁.1).since hR).closed hR).post fun b tx₂ db₂ h₂ => ?_
  refine ⟨(h₂ db₂ (hR.refl _ _)).1.1, fun d hd => ?_⟩
  have hlater := (h₂ d hd).1.2 d (hR.refl _ _)
  -- what the first part held is still held while the second runs
  exact (h₁.2 d (h₂ d hd).2).bind hlater

theorem Repeats.each (hR : Interference R) {I : Tx Stmt Resp Write → Prop}
    {f : α → Prog Stmt Resp Err β}
    (hstep : ∀ x tx db, I tx → (f x).Repeats E R G (fun _ tx' => I tx') tx db) (xs : List α)
    {tx : Tx Stmt Resp Write} {db : Db} (h : I tx) :
    (Prog.each f xs).Repeats E R G (fun _ tx' => I tx') tx db := by
  induction xs generalizing tx db with
  | nil => exact fun db' _ => ⟨h, fun d _ => ⟨rfl, rfl⟩⟩
  | cons x xs ih =>
      refine Repeats.seq hR (hstep x tx db h) fun y tx₁ db₁ h₁ => ?_
      refine Repeats.seq hR (ih h₁) fun ys tx₂ db₂ h₂ => ?_
      exact fun db' _ => ⟨h₂, fun d _ => ⟨rfl, rfl⟩⟩

end Txn.Prog
