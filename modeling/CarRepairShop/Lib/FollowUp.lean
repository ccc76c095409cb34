import Mathlib.Data.List.Perm.Lattice
import CarRepairShop.Lib.ReadCommitted

/-! # What a commit sets off

A client can have more to do once its unit of work has committed: it runs a
program that only reads, outside any transaction, and delivers what that
program returns. Each of its statements sees the tables that are committed by
then, so what is delivered speaks of later tables than those of the commit
that set it off.

A system with follow-ups (`Followed`) is a system of transactions with the
follow-ups that are pending and the values that were delivered. For the
theorems only, each of them remembers which commit it follows, and how many
commits there had been when each of its statements was answered.
`FollowedReachable.invariant` says what holds of them in every reachable state:
one for each commit that sets one off, and each answered by tables of that
commit or later ones.
-/

namespace Txn

variable {Db Stmt Write Err Op α β : Type} {Resp : Stmt → Type}

/-! ## The tables after each commit -/

section Tables

variable (E : Engine Db Stmt Resp Write Err)

/-- The committed tables after the first `k` commits of a log. -/
def tablesAfter (start : Db) (log : List (Commit Db Stmt Resp Write Op α)) (k : ℕ) : Db :=
  (log.take k).foldl (fun db c => E.applyAll db c.tx.writes) start

variable {E} {start : Db} {log : List (Commit Db Stmt Resp Write Op α)}

@[simp] theorem tablesAfter_zero : tablesAfter E start log 0 = start := rfl

theorem tablesAfter_succ {k : ℕ} {c : Commit Db Stmt Resp Write Op α} (h : log[k]? = some c) :
    tablesAfter E start log (k + 1) = E.applyAll (tablesAfter E start log k) c.tx.writes := by
  have htake : log.take (k + 1) = log.take k ++ [c] := by
    rw [List.take_add_one, h]
    rfl
  unfold tablesAfter
  rw [htake, List.foldl_append]
  rfl

/-- One more commit leaves the earlier tables as they were. -/
theorem tablesAfter_append {k : ℕ} (hk : k ≤ log.length)
    (more : List (Commit Db Stmt Resp Write Op α)) :
    tablesAfter E start (log ++ more) k = tablesAfter E start log k := by
  unfold tablesAfter
  rw [List.take_append_of_le_length hk]

/-- The log of a run accounts for the tables: each commit started from the
tables the ones before it left, and the last left those of the state. -/
structure Logged (E : Engine Db Stmt Resp Write Err) (start : Db)
    (s : Sys Db Stmt Resp Write Err Op α) : Prop where
  before : ∀ (k : ℕ) (c : Commit Db Stmt Resp Write Op α), s.log[k]? = some c →
    c.before = tablesAfter E start s.log k
  now : s.db = tablesAfter E start s.log s.log.length

theorem Reachable.logged {program : Op → Prog Stmt Resp Err α}
    {G : Guard Db Stmt Resp Write Op} {init s : Sys Db Stmt Resp Write Err Op α}
    (hlog : init.log = []) (h : Reachable E program G init s) : Logged E init.db s := by
  induction h with
  | init =>
      constructor
      · intro k c hc
        simp [hlog] at hc
      · simp [hlog]
  | @step s₁ s₂ l _ hall hstep ih =>
      cases move_of_step hall hstep with
      | commit i op a tx hi =>
          constructor
          · intro k c hc
            rcases Nat.lt_or_ge k s₁.log.length with hk | hk
            · rw [List.getElem?_append_left hk] at hc
              rw [tablesAfter_append (Nat.le_of_lt hk)]
              exact ih.before k c hc
            · -- the commit itself is the last of the log
              have hlt := (List.getElem?_eq_some_iff.mp hc).1
              rw [List.length_append, List.length_singleton] at hlt
              obtain rfl : k = s₁.log.length := by omega
              rw [List.getElem?_concat_length] at hc
              cases hc
              rw [tablesAfter_append (Nat.le_refl _)]
              exact ih.now
          · have hlast : (s₁.log ++ [⟨i, op, a, tx, s₁.db⟩])[s₁.log.length]? =
                some ⟨i, op, a, tx, s₁.db⟩ := List.getElem?_concat_length
            have hafter : tablesAfter E init.db _ (s₁.log.length + 1) = _ := tablesAfter_succ hlast
            rw [tablesAfter_append (Nat.le_refl _), ← ih.now] at hafter
            simpa using hafter.symm
      | _ => exact ⟨ih.before, ih.now⟩

/-- A move makes at most one commit, and forgets none. -/
theorem log_of_step {program : Op → Prog Stmt Resp Err α} {s s' : Sys Db Stmt Resp Write Err Op α}
    {l : Label Op} (h : s.step E program l = some s') : ∃ more, s'.log = s.log ++ more := by
  cases move_of_step (s.allowed_none E l) h with
  | commit i op a tx hi => exact ⟨_, rfl⟩
  | _ => exact ⟨[], (List.append_nil _).symm⟩

end Tables

/-! ## Programs that read as time goes by -/

/-- What is left of a program whose statements were answered by the tables of
the positions `js`, in order, none of them before `lo` or after `hi`. -/
inductive Reads (E : Engine Db Stmt Resp Write Err) (tables : ℕ → Db) (hi : ℕ) :
    ℕ → Prog Stmt Resp Err β → List ℕ → Prog Stmt Resp Err β → Prop where
  | done {lo : ℕ} {p : Prog Stmt Resp Err β} (h : lo ≤ hi) : Reads E tables hi lo p [] p
  | read {lo j : ℕ} {q : Stmt} {refused : Err → Err} {k : Resp q → Prog Stmt Resp Err β}
      {r : Resp q} {js : List ℕ} {p : Prog Stmt Resp Err β} (h : lo ≤ j)
      (he : E.exec q (tables j) = .ok (r, [])) (rest : Reads E tables hi j (k r) js p) :
      Reads E tables hi lo (.stmt q refused k) (j :: js) p

section Reads

variable {E : Engine Db Stmt Resp Write Err} {tables tables' : ℕ → Db} {lo hi hi' : ℕ}
variable {p p' : Prog Stmt Resp Err β} {js : List ℕ}

theorem Reads.le (h : Reads E tables hi lo p js p') : lo ≤ hi := by
  induction h with
  | done hle => exact hle
  | read hle _ _ ih => exact Nat.le_trans hle ih

/-- Later tables do not matter. -/
theorem Reads.later (h : Reads E tables hi lo p js p') (hhi : hi ≤ hi')
    (hsame : ∀ j, j ≤ hi → tables' j = tables j) : Reads E tables' hi' lo p js p' := by
  induction h with
  | done hle => exact .done (Nat.le_trans hle hhi)
  | read hle he hrest ih =>
      refine .read hle ?_ ih
      rw [hsame _ hrest.le]
      exact he

/-- One more statement is answered. -/
theorem Reads.snoc {q : Stmt} {refused : Err → Err} {k : Resp q → Prog Stmt Resp Err β}
    {r : Resp q} (h : Reads E tables hi lo p js (.stmt q refused k))
    (he : E.exec q (tables hi) = .ok (r, [])) : Reads E tables hi lo p (js ++ [hi]) (k r) := by
  generalize hq : Prog.stmt q refused k = p' at h
  induction h with
  | done hle =>
      subst hq
      exact .read hle he (.done (Nat.le_refl _))
  | read hle he' _ ih => exact .read hle he' (ih hq)

/-- A program that returned at once read nothing. -/
theorem Reads.of_pure {b : β} (h : Reads E tables hi lo (.pure b) js p') :
    js = [] ∧ p' = .pure b := by
  cases h with
  | done _ => exact ⟨rfl, rfl⟩

/-- A program that starts with a statement and has returned had it answered. -/
theorem Reads.of_stmt {q : Stmt} {refused : Err → Err} {k : Resp q → Prog Stmt Resp Err β} {b : β}
    (h : Reads E tables hi lo (.stmt q refused k) js (.pure b)) :
    ∃ j r rest, js = j :: rest ∧ lo ≤ j ∧ E.exec q (tables j) = .ok (r, []) ∧
      Reads E tables hi j (k r) rest (.pure b) := by
  cases h with
  | read hle he hrest => exact ⟨_, _, _, rfl, hle, he, hrest⟩

end Reads

/-! ## Systems with follow-ups -/

/-- A follow-up under way: the position in the log of the commit it follows,
what is left to do, and the position at which each of its statements was
answered. -/
structure FollowUp (Stmt : Type) (Resp : Stmt → Type) (Err β : Type) where
  cause : ℕ
  prog : Prog Stmt Resp Err β
  readAt : List ℕ := []

/-- What a follow-up delivered. -/
structure Delivery (β : Type) where
  cause : ℕ
  value : β
  readAt : List ℕ
deriving Repr

/-- A system of transactions with the follow-ups of its commits. -/
structure Followed (Db Stmt : Type) (Resp : Stmt → Type) (Write Err Op α β : Type) where
  sys : Sys Db Stmt Resp Write Err Op α
  pending : List (FollowUp Stmt Resp Err β) := []
  delivered : List (Delivery β) := []

/-- The moves of a system with follow-ups: those of the transactions, and of a
follow-up to have its next statement answered or to deliver what it returns. -/
inductive FollowedLabel (Op : Type) where
  | act (l : Label Op)
  | read (i : ℕ)
  | deliver (i : ℕ)
deriving Repr

namespace Followed

variable (E : Engine Db Stmt Resp Write Err) (program : Op → Prog Stmt Resp Err α)
variable (follow : Op → α → Option (Prog Stmt Resp Err β))

/-- The follow-up of the commit at position `k`. -/
def followUp? : Commit Db Stmt Resp Write Op α × ℕ → Option (FollowUp Stmt Resp Err β)
  | (c, k) => (follow c.op c.result).map fun prog => { cause := k, prog }

/-- The follow-ups of the commits `log`, the first of them at position `k`. -/
def started (log : List (Commit Db Stmt Resp Write Op α)) (k : ℕ) :
    List (FollowUp Stmt Resp Err β) :=
  (log.zipIdx k).filterMap (followUp? follow)

/-- One move; `none` when it is not possible. -/
def step (s : Followed Db Stmt Resp Write Err Op α β) :
    FollowedLabel Op → Option (Followed Db Stmt Resp Write Err Op α β)
  | .act l => (s.sys.step E program l).map fun sys =>
      { s with sys, pending := s.pending ++ started follow (sys.log.drop s.sys.log.length) s.sys.log.length }
  | .read i =>
      match s.pending[i]? with
      | some ⟨cause, .stmt q _ k, readAt⟩ =>
          match E.exec q s.sys.db with
          | .ok (r, []) => some { s with
              pending := s.pending.set i ⟨cause, k r, readAt ++ [s.sys.log.length]⟩ }
          | _ => none
      | _ => none
  | .deliver i =>
      match s.pending[i]? with
      | some ⟨cause, .pure b, readAt⟩ => some { s with
          pending := s.pending.eraseIdx i
          delivered := s.delivered ++ [⟨cause, b, readAt⟩] }
      | _ => none

/-- Makes the moves of a list in order; `none` when one is impossible. -/
def play (s : Followed Db Stmt Resp Write Err Op α β) :
    List (FollowedLabel Op) → Option (Followed Db Stmt Resp Write Err Op α β)
  | [] => some s
  | l :: ls => (s.step E program follow l).bind fun s' => s'.play ls

end Followed

/-- The states that the runs from `init` reach. -/
inductive FollowedReachable (E : Engine Db Stmt Resp Write Err)
    (program : Op → Prog Stmt Resp Err α) (follow : Op → α → Option (Prog Stmt Resp Err β))
    (init : Followed Db Stmt Resp Write Err Op α β) :
    Followed Db Stmt Resp Write Err Op α β → Prop where
  | init : FollowedReachable E program follow init init
  | step {s s' : Followed Db Stmt Resp Write Err Op α β} (l : FollowedLabel Op) :
      FollowedReachable E program follow init s → s.step E program follow l = some s' →
      FollowedReachable E program follow init s'

section FollowedRuns

variable {E : Engine Db Stmt Resp Write Err} {program : Op → Prog Stmt Resp Err α}
variable {follow : Op → α → Option (Prog Stmt Resp Err β)}
variable {init s s' : Followed Db Stmt Resp Write Err Op α β}

theorem followedReachable_of_play (hs : FollowedReachable E program follow init s) :
    ∀ {ls : List (FollowedLabel Op)}, s.play E program follow ls = some s' →
      FollowedReachable E program follow init s' := by
  intro ls h
  induction ls generalizing s with
  | nil =>
      cases h
      exact hs
  | cons l ls ih =>
      obtain ⟨s₁, hstep, hrest⟩ := Option.bind_eq_some_iff.mp h
      exact ih (.step l hs hstep) hrest

/-- Everything one move can do. -/
inductive FollowedMove (E : Engine Db Stmt Resp Write Err) (program : Op → Prog Stmt Resp Err α)
    (follow : Op → α → Option (Prog Stmt Resp Err β)) (s : Followed Db Stmt Resp Write Err Op α β) :
    Followed Db Stmt Resp Write Err Op α β → Prop where
  | act (l : Label Op) (sys : Sys Db Stmt Resp Write Err Op α)
      (more : List (Commit Db Stmt Resp Write Op α)) (h : s.sys.step E program l = some sys)
      (hlog : sys.log = s.sys.log ++ more) :
      FollowedMove E program follow s { s with
        sys, pending := s.pending ++ Followed.started follow more s.sys.log.length }
  | read (i : ℕ) (cause : ℕ) (q : Stmt) (refused : Err → Err) (k : Resp q → Prog Stmt Resp Err β)
      (readAt : List ℕ) (r : Resp q) (hi : s.pending[i]? = some ⟨cause, .stmt q refused k, readAt⟩)
      (he : E.exec q s.sys.db = .ok (r, [])) :
      FollowedMove E program follow s { s with
        pending := s.pending.set i ⟨cause, k r, readAt ++ [s.sys.log.length]⟩ }
  | deliver (i : ℕ) (cause : ℕ) (b : β) (readAt : List ℕ)
      (hi : s.pending[i]? = some ⟨cause, .pure b, readAt⟩) :
      FollowedMove E program follow s { s with
        pending := s.pending.eraseIdx i
        delivered := s.delivered ++ [⟨cause, b, readAt⟩] }

theorem followedMove_of_step {l : FollowedLabel Op} (h : s.step E program follow l = some s') :
    FollowedMove E program follow s s' := by
  cases l with
  | act l =>
      obtain ⟨sys, hstep, rfl⟩ := Option.map_eq_some_iff.mp h
      obtain ⟨more, hlog⟩ := log_of_step hstep
      have hdrop : sys.log.drop s.sys.log.length = more := by
        rw [hlog, List.drop_left]
      rw [hdrop]
      exact .act l sys more hstep hlog
  | read i =>
      simp only [Followed.step] at h
      split at h
      · next cause q refused k readAt hi =>
        split at h
        · next r he =>
          cases h
          exact .read i cause q refused k readAt r hi he
        · cases h
      · cases h
  | deliver i =>
      simp only [Followed.step] at h
      split at h
      · next cause b readAt hi =>
        cases h
        exact .deliver i cause b readAt hi
      · cases h

/-- The transactions of a system with follow-ups run as they would without. -/
theorem FollowedReachable.sys (h : FollowedReachable E program follow init s) :
    Reachable E program .none init.sys s.sys := by
  induction h with
  | init => exact .init
  | step l _ hstep ih =>
      cases followedMove_of_step hstep with
      | act l sys more h _ => exact .step l ih (Sys.allowed_none ..) h
      | _ => exact ih

/-- What holds of the follow-ups: there is one for each commit that sets one
off, and each is what is left of the program that commit set off, its
statements answered by the tables of that commit or later ones. -/
structure FollowedInvariant (E : Engine Db Stmt Resp Write Err)
    (follow : Op → α → Option (Prog Stmt Resp Err β)) (start : Db)
    (s : Followed Db Stmt Resp Write Err Op α β) : Prop where
  causes : (s.pending.map (·.cause) ++ s.delivered.map (·.cause)).Perm
    ((Followed.started follow s.sys.log 0).map (·.cause))
  pending : ∀ f ∈ s.pending, ∃ c p, s.sys.log[f.cause]? = some c ∧ follow c.op c.result = some p ∧
    Reads E (tablesAfter E start s.sys.log) s.sys.log.length (f.cause + 1) p f.readAt f.prog
  delivered : ∀ d ∈ s.delivered, ∃ c p, s.sys.log[d.cause]? = some c ∧
    follow c.op c.result = some p ∧
    Reads E (tablesAfter E start s.sys.log) s.sys.log.length (d.cause + 1) p d.readAt (.pure d.value)

theorem started_append (log more : List (Commit Db Stmt Resp Write Op α)) (k : ℕ) :
    Followed.started follow (log ++ more) k =
      Followed.started follow log k ++ Followed.started follow more (k + log.length) := by
  unfold Followed.started
  rw [List.zipIdx_append, List.filterMap_append]

theorem mem_started {log : List (Commit Db Stmt Resp Write Op α)} {k : ℕ}
    {f : FollowUp Stmt Resp Err β} :
    f ∈ Followed.started follow log k ↔ ∃ j c p, log[j]? = some c ∧
      follow c.op c.result = some p ∧ f = { cause := k + j, prog := p } := by
  unfold Followed.started
  rw [List.mem_filterMap]
  constructor
  · rintro ⟨⟨c, n⟩, hmem, hf⟩
    obtain ⟨p, hp, rfl⟩ := Option.map_eq_some_iff.mp hf
    have hle := List.le_snd_of_mem_zipIdx hmem
    have hget := List.mk_mem_zipIdx_iff_le_and_getElem?_sub.mp hmem
    refine ⟨n - k, c, p, hget.2, hp, ?_⟩
    rw [Nat.add_sub_cancel' hget.1]
  · rintro ⟨j, c, p, hc, hp, rfl⟩
    refine ⟨(c, k + j), ?_, ?_⟩
    · rw [List.mk_mem_zipIdx_iff_le_and_getElem?_sub]
      exact ⟨Nat.le_add_right k j, by rwa [Nat.add_sub_cancel_left]⟩
    · simp [Followed.followUp?, hp]

/-- Replacing a value by one that looks the same. -/
theorem map_set_same {γ δ : Type} {f : γ → δ} {xs : List γ} {i : ℕ} {x y : γ}
    (hi : xs[i]? = some x) (hy : f y = f x) : (xs.set i y).map f = xs.map f := by
  obtain ⟨hlt, rfl⟩ := List.getElem?_eq_some_iff.mp hi
  have hlt' : i < (xs.map f).length := by simpa using hlt
  have hself := List.set_getElem_self hlt'
  rw [List.map_set, hy]
  rwa [List.getElem_map] at hself

/-- What a follow-up has read stays what it has read. -/
theorem Reads.grow {start : Db} {log : List (Commit Db Stmt Resp Write Op α)} {lo : ℕ}
    {p p' : Prog Stmt Resp Err β} {js : List ℕ}
    (h : Reads E (tablesAfter E start log) log.length lo p js p')
    (more : List (Commit Db Stmt Resp Write Op α)) :
    Reads E (tablesAfter E start (log ++ more)) (log ++ more).length lo p js p' := by
  refine h.later ?_ fun j hj => tablesAfter_append hj more
  rw [List.length_append]
  exact Nat.le_add_right _ _

theorem FollowedInvariant.act {start : Db} (h : FollowedInvariant E follow start s)
    {sys : Sys Db Stmt Resp Write Err Op α} {more : List (Commit Db Stmt Resp Write Op α)}
    (hlog : sys.log = s.sys.log ++ more) :
    FollowedInvariant E follow start { s with
      sys, pending := s.pending ++ Followed.started follow more s.sys.log.length } where
  causes := by
    have hnew : Followed.started follow sys.log 0 =
        Followed.started follow s.sys.log 0 ++ Followed.started follow more s.sys.log.length := by
      rw [hlog, started_append, Nat.zero_add]
    rw [hnew, List.map_append, List.map_append, List.append_assoc]
    refine (List.Perm.append_left _ List.perm_append_comm).trans ?_
    rw [← List.append_assoc]
    exact h.causes.append_right _
  pending := by
    intro f hf
    rcases List.mem_append.mp hf with hf | hf
    · obtain ⟨c, p, hc, hp, hreads⟩ := h.pending f hf
      refine ⟨c, p, ?_, hp, ?_⟩
      · rw [hlog, List.getElem?_append_left (List.getElem?_eq_some_iff.mp hc).1]
        exact hc
      · rw [hlog]
        exact hreads.grow more
    · -- a follow-up that has just been set off has read nothing yet
      obtain ⟨j, c, p, hc, hp, rfl⟩ := mem_started.mp hf
      have hj := (List.getElem?_eq_some_iff.mp hc).1
      refine ⟨c, p, ?_, hp, ?_⟩
      · rw [hlog, List.getElem?_append_right (Nat.le_add_right _ j), Nat.add_sub_cancel_left]
        exact hc
      · rw [hlog]
        refine .done ?_
        change s.sys.log.length + j + 1 ≤ _
        rw [List.length_append]
        omega
  delivered := by
    intro d hd
    obtain ⟨c, p, hc, hp, hreads⟩ := h.delivered d hd
    refine ⟨c, p, ?_, hp, ?_⟩
    · rw [hlog, List.getElem?_append_left (List.getElem?_eq_some_iff.mp hc).1]
      exact hc
    · rw [hlog]
      exact hreads.grow more

/-- The step: every move keeps the invariant. -/
theorem FollowedInvariant.move {start : Db} (h : FollowedInvariant E follow start s)
    (hlogged : Logged E start s.sys) (hm : FollowedMove E program follow s s') :
    FollowedInvariant E follow start s' := by
  cases hm with
  | act l sys more _ hlog => exact h.act hlog
  | read i cause q refused k readAt r hi he =>
      constructor
      · have hsame : (s.pending.set i ⟨cause, k r, readAt ++ [s.sys.log.length]⟩).map (·.cause) =
            s.pending.map (·.cause) := map_set_same hi rfl
        rw [hsame]
        exact h.causes
      · intro f hf
        -- the others are as they were; the one that read saw the tables of this moment
        rcases List.mem_or_eq_of_mem_set hf with hf | rfl
        · exact h.pending f hf
        · obtain ⟨c, p, hc, hp, hreads⟩ := h.pending _ (List.mem_of_getElem? hi)
          refine ⟨c, p, hc, hp, hreads.snoc ?_⟩
          rw [← hlogged.now]
          exact he
      · exact h.delivered
  | deliver i cause b readAt hi =>
      constructor
      -- the follow-up only changes from one list to the other
      · obtain ⟨hlt, hget⟩ := List.getElem?_eq_some_iff.mp hi
        have hperm := (List.getElem_cons_eraseIdx_perm hlt).map FollowUp.cause
        rw [hget, List.map_cons] at hperm
        rw [List.map_append, List.map_singleton, ← List.append_assoc]
        refine (List.perm_append_singleton cause _).trans ?_
        rw [← List.cons_append]
        exact (hperm.append_right _).trans h.causes
      · intro f hf
        exact h.pending f (List.mem_of_mem_eraseIdx hf)
      · intro d hd
        rcases List.mem_append.mp hd with hd | hd
        · exact h.delivered d hd
        · obtain rfl := List.mem_singleton.mp hd
          exact h.pending _ (List.mem_of_getElem? hi)

/-- The run: the invariant holds in every state reached. -/
theorem FollowedReachable.invariant (hlog : init.sys.log = []) (hpending : init.pending = [])
    (hdelivered : init.delivered = []) (h : FollowedReachable E program follow init s) :
    FollowedInvariant E follow init.sys.db s := by
  induction h with
  | init =>
      constructor
      · simp [hlog, hpending, hdelivered, Followed.started]
      · simp [hpending]
      · simp [hdelivered]
  | step l hs hstep ih =>
      exact ih.move (hs.sys.logged hlog) (followedMove_of_step hstep)

/-- No commit sets off two follow-ups. -/
theorem FollowedInvariant.nodup {start : Db} (h : FollowedInvariant E follow start s) :
    (s.pending.map (·.cause) ++ s.delivered.map (·.cause)).Nodup := by
  refine h.causes.nodup_iff.mpr ?_
  -- a cause is a position in the log, and no position comes twice
  have hpositions : s.sys.log.zipIdx.Pairwise fun x y => x.2 ≠ y.2 := by
    rw [← List.pairwise_map, List.zipIdx_map_snd]
    exact List.nodup_range' _
  rw [List.Nodup, List.pairwise_map]
  refine hpositions.filterMap _ ?_
  rintro ⟨c, k⟩ ⟨c', k'⟩ hne f hf f' hf'
  obtain ⟨p, -, rfl⟩ := Option.map_eq_some_iff.mp hf
  obtain ⟨p', -, rfl⟩ := Option.map_eq_some_iff.mp hf'
  exact hne

/-- Every commit that sets one off has its follow-up, pending or delivered. -/
theorem FollowedInvariant.complete {start : Db} (h : FollowedInvariant E follow start s) {k : ℕ}
    {c : Commit Db Stmt Resp Write Op α} {p : Prog Stmt Resp Err β} (hc : s.sys.log[k]? = some c)
    (hp : follow c.op c.result = some p) :
    (∃ f ∈ s.pending, f.cause = k) ∨ ∃ d ∈ s.delivered, d.cause = k := by
  have hmem : k ∈ (Followed.started follow s.sys.log 0).map (·.cause) := by
    rw [List.mem_map]
    exact ⟨⟨k, p, []⟩, mem_started.mpr ⟨k, c, p, hc, hp, by rw [Nat.zero_add]⟩, rfl⟩
  rw [← h.causes.mem_iff, List.mem_append, List.mem_map, List.mem_map] at hmem
  exact hmem

end FollowedRuns

end Txn
