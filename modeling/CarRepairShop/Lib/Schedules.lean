import Mathlib.Data.List.Perm.Basic
import Mathlib.Logic.Relation

/-! # Schedules that agree on every lane

A schedule is a list of events, each of a lane. Two schedules that have the same
events in the same order on every lane are interleavings of the same lanes, and
one becomes the other by swaps of neighbours of different lanes
(`swaps_of_sameLanes`).

A system works off a schedule event by event; a step answers the event and may
go several ways, which `alike` does not tell apart. If events of different lanes
that stand next to each other can be swapped, then the order of the lanes among
each other does not matter: alike states are reached, and every lane gets the
same answers in the same order (`Confluent.run`).
-/

namespace Lib

variable {S M A K : Type*}

/-! ## Swaps -/

/-- The same events in the same order on every lane. -/
def SameLanes [DecidableEq K] (lane : M → K) (l l' : List M) : Prop :=
  ∀ k, l.filter (fun m => lane m = k) = l'.filter (fun m => lane m = k)

/-- Two neighbours that may be swapped are. -/
inductive Swapped (apart : M → M → Prop) : List M → List M → Prop where
  | swap (before after : List M) (m n : M) (h : apart m n) :
      Swapped apart (before ++ m :: n :: after) (before ++ n :: m :: after)

section Swaps

variable {apart : M → M → Prop}

theorem Swapped.cons {l l' : List M} (h : Swapped apart l l') (m : M) :
    Swapped apart (m :: l) (m :: l') := by
  cases h with
  | swap before after a b hab => exact .swap (m :: before) after a b hab

theorem Swapped.perm {l l' : List M} (h : Swapped apart l l') : l.Perm l' := by
  cases h with
  | swap before after m n _ => exact (List.Perm.swap n m after).append_left before

/-- An event that is apart from all before it can be moved to the front. -/
theorem swaps_to_front {before after : List M} {m : M} (h : ∀ n ∈ before, apart m n) :
    Relation.ReflTransGen (Swapped apart) (m :: (before ++ after)) (before ++ m :: after) := by
  induction before with
  | nil => exact .refl
  | cons n before ih =>
      have hfirst : Swapped apart (m :: n :: (before ++ after)) (n :: m :: (before ++ after)) :=
        .swap [] _ m n (h n List.mem_cons_self)
      have hrest := ih fun n' hn' => h n' (List.mem_cons_of_mem n hn')
      exact .head hfirst (hrest.lift _ fun _ _ hswap => hswap.cons n)

variable [DecidableEq K] {lane : M → K}

theorem SameLanes.trans {l l' l'' : List M} (h : SameLanes lane l l') (h' : SameLanes lane l' l'') :
    SameLanes lane l l'' :=
  fun k => (h k).trans (h' k)

theorem SameLanes.nil_left {l : List M} (h : SameLanes lane [] l) : l = [] := by
  rw [List.eq_nil_iff_forall_not_mem]
  intro m hm
  have hnone := h (lane m)
  rw [List.filter_nil, eq_comm, List.filter_eq_nil_iff] at hnone
  simpa using hnone m hm

/-- Where the first event of a schedule stands in one that agrees with it. -/
theorem SameLanes.cons_left {m : M} {l l' : List M} (h : SameLanes lane (m :: l) l') :
    ∃ before after, l' = before ++ m :: after ∧ (∀ n ∈ before, lane n ≠ lane m) ∧
      SameLanes lane l (before ++ after) := by
  have hown := (h (lane m)).symm
  rw [List.filter_cons_of_pos (by simp), List.filter_eq_cons_iff] at hown
  rcases hown with ⟨before, after, rfl, hbefore, -, hafter⟩
  have hothers : ∀ n ∈ before, lane n ≠ lane m := by
    intro n hn
    simpa using hbefore n hn
  refine ⟨before, after, rfl, hothers, ?_⟩
  intro k
  have hk := h k
  rw [List.filter_append] at hk ⊢
  by_cases hm : lane m = k
  · have hnone : before.filter (fun n => lane n = k) = [] := by
      rw [List.filter_eq_nil_iff]
      intro n hn
      simpa [← hm] using hothers n hn
    rw [List.filter_cons_of_pos (by simpa using hm), hnone, List.nil_append,
      List.filter_cons_of_pos (by simpa using hm)] at hk
    rw [hnone, List.nil_append]
    exact (List.cons.inj hk).2
  · rw [List.filter_cons_of_neg (by simpa using hm), List.filter_cons_of_neg (by simpa using hm)]
      at hk
    exact hk

/-- Schedules that agree on every lane are some swaps apart. -/
theorem swaps_of_sameLanes {l l' : List M} (h : SameLanes lane l l')
    (hapart : ∀ m ∈ l, ∀ n ∈ l, lane m ≠ lane n → apart m n) :
    Relation.ReflTransGen (Swapped apart) l l' := by
  induction l generalizing l' with
  | nil =>
      rw [h.nil_left]
  | cons m l ih =>
      rcases h.cons_left with ⟨before, after, rfl, hothers, hrest⟩
      have hswaps := ih hrest fun a ha b hb =>
        hapart a (List.mem_cons_of_mem m ha) b (List.mem_cons_of_mem m hb)
      -- the rest first, then the first event to its place
      refine (hswaps.lift (m :: ·) fun _ _ hswap => hswap.cons m).trans (swaps_to_front ?_)
      intro n hn
      have hmem : n ∈ m :: l := by
        have hperm : l.Perm (before ++ after) :=
          Relation.ReflTransGen.head_induction_on (motive := fun a _ => a.Perm (before ++ after))
            hswaps (List.Perm.refl _) fun hswap _ hperm => hswap.perm.trans hperm
        exact List.mem_cons_of_mem m (hperm.mem_iff.mpr (List.mem_append_left _ hn))
      exact hapart m List.mem_cons_self n hmem (Ne.symm (hothers n hn))

end Swaps

/-! ## Working off a schedule -/

variable {step : S → M → A → S → Prop}

/-- The system works off the events, with the answers it gives. -/
inductive WorksOff (step : S → M → A → S → Prop) : S → List (M × A) → S → Prop where
  | done (s : S) : WorksOff step s [] s
  | next {s t u : S} {m : M} {a : A} {rest : List (M × A)} (first : step s m a t)
      (others : WorksOff step t rest u) : WorksOff step s ((m, a) :: rest) u

/-- What makes the order of the lanes irrelevant: `ready` holds all along, alike
states answer alike, and events that are apart commute. -/
structure Confluent (step : S → M → A → S → Prop) (ready : S → Prop) (alike : S → S → Prop)
    (apart : M → M → Prop) : Prop where
  equivalence : Equivalence alike
  total : ∀ s m, ∃ a t, step s m a t
  keeps : ∀ {s m a t}, ready s → step s m a t → ready t
  same : ∀ {s s' m a a' t t'}, ready s → ready s' → alike s s' → step s m a t → step s' m a' t' →
    a = a' ∧ alike t t'
  commute : ∀ {s m n a b a' b' t u t' u'}, ready s → apart m n → step s m a t → step t n b u →
    step s n b' t' → step t' m a' u' → a = a' ∧ b = b' ∧ alike u u'

section Runs

variable {ready : S → Prop} {alike : S → S → Prop} {apart : M → M → Prop}

/-- A run over two parts, in between. -/
theorem WorksOff.split {s u : S} {r r' : List (M × A)} (h : WorksOff step s (r ++ r') u) :
    ∃ t, WorksOff step s r t ∧ WorksOff step t r' u := by
  induction r generalizing s with
  | nil => exact ⟨s, .done s, h⟩
  | cons x r ih =>
      cases h with
      | next hfirst hothers =>
          rcases ih hothers with ⟨t, hr, hr'⟩
          exact ⟨t, .next hfirst hr, hr'⟩

namespace Confluent

variable (h : Confluent step ready alike apart)

include h

/-- Every schedule can be worked off. -/
theorem exists_run (s : S) (l : List M) : ∃ r t, WorksOff step s r t ∧ r.map Prod.fst = l := by
  induction l generalizing s with
  | nil => exact ⟨[], s, .done s, rfl⟩
  | cons m l ih =>
      rcases h.total s m with ⟨a, t, hstep⟩
      rcases ih t with ⟨r, u, hr, rfl⟩
      exact ⟨(m, a) :: r, u, .next hstep hr, rfl⟩

theorem ready_of_run {s t : S} {r : List (M × A)} (hs : ready s) (hr : WorksOff step s r t) :
    ready t := by
  induction hr with
  | done s => exact hs
  | next hfirst _ ih => exact ih (h.keeps hs hfirst)

/-- One schedule, worked off from alike states. -/
theorem same_run {s s' t t' : S} {r r' : List (M × A)} (hs : ready s) (hs' : ready s')
    (halike : alike s s') (hr : WorksOff step s r t) (hr' : WorksOff step s' r' t')
    (hl : r.map Prod.fst = r'.map Prod.fst) : r = r' ∧ alike t t' := by
  induction hr generalizing s' r' with
  | done s =>
      cases hr' with
      | done s' => exact ⟨rfl, halike⟩
      | next _ _ => cases hl
  | next hfirst hothers ih =>
      cases hr' with
      | done _ => cases hl
      | next hfirst' hothers' =>
          rw [List.map_cons, List.map_cons, List.cons.injEq] at hl
          have hm := hl.1
          simp only at hm
          subst hm
          rcases h.same hs hs' halike hfirst hfirst' with ⟨rfl, hnext⟩
          rcases ih (h.keeps hs hfirst) (h.keeps hs' hfirst') hnext hothers' hl.2 with ⟨rfl, hlast⟩
          exact ⟨rfl, hlast⟩

variable [DecidableEq K] {lane : M → K}

/-- Two schedules that differ by one swap. -/
theorem swapped_run (hlane : ∀ {m n}, apart m n → lane m ≠ lane n) {s t t' : S}
    {r r' : List (M × A)} (hs : ready s) (hr : WorksOff step s r t) (hr' : WorksOff step s r' t')
    (hswap : Swapped apart (r.map Prod.fst) (r'.map Prod.fst)) :
    SameLanes (fun x => lane x.1) r r' ∧ alike t t' := by
  generalize hl : r.map Prod.fst = l at hswap
  generalize hl' : r'.map Prod.fst = l' at hswap
  cases hswap with
  | swap before after m n hapart =>
      -- the parts of both runs
      rcases List.map_eq_append_iff.mp hl with ⟨p, q, rfl, hp, hq⟩
      rcases List.map_eq_append_iff.mp hl' with ⟨p', q', rfl, hp', hq'⟩
      rcases List.map_eq_cons_iff.mp hq with ⟨⟨m₁, a⟩, q₁, rfl, hm, hq₁⟩
      rcases List.map_eq_cons_iff.mp hq₁ with ⟨⟨n₁, b⟩, q₂, rfl, hn, hq₂⟩
      rcases List.map_eq_cons_iff.mp hq' with ⟨⟨n₂, b'⟩, q₁', rfl, hn', hq₁'⟩
      rcases List.map_eq_cons_iff.mp hq₁' with ⟨⟨m₂, a'⟩, q₂', rfl, hm', hq₂'⟩
      obtain ⟨rfl, rfl, rfl, rfl⟩ : m = m₁ ∧ n = n₁ ∧ n = n₂ ∧ m = m₂ :=
        ⟨hm.symm, hn.symm, hn'.symm, hm'.symm⟩
      rcases hr.split with ⟨v, hv, hrest⟩
      rcases hr'.split with ⟨v', hv', hrest'⟩
      have hready := h.ready_of_run hs hv
      have hready' := h.ready_of_run hs hv'
      rcases h.same_run hs hs (h.equivalence.refl s) hv hv' (hp.trans hp'.symm) with ⟨rfl, hmid⟩
      rcases hrest with _ | ⟨hstep₁, hrest⟩
      rcases hrest with _ | ⟨hstep₂, hrest⟩
      rcases hrest' with _ | ⟨hstep₁', hrest'⟩
      rcases hrest' with _ | ⟨hstep₂', hrest'⟩
      next u w u' w' =>
      -- the swapped steps from the middle state of the first run
      rcases h.total v n with ⟨b₀, t₀, hfirst⟩
      rcases h.total t₀ m with ⟨a₀, u₀, hsecond⟩
      rcases h.commute hready hapart hstep₁ hstep₂ hfirst hsecond with ⟨rfl, rfl, hcommute⟩
      rcases h.same hready hready' hmid hfirst hstep₁' with ⟨rfl, hmid₁⟩
      have hready₀ := h.keeps hready hfirst
      have hready₁ := h.keeps hready' hstep₁'
      rcases h.same hready₀ hready₁ hmid₁ hsecond hstep₂' with ⟨rfl, hmid₂⟩
      have hend := h.equivalence.trans hcommute hmid₂
      rcases h.same_run (h.keeps (h.keeps hready hstep₁) hstep₂) (h.keeps hready₁ hstep₂') hend hrest
        hrest' (hq₂.trans hq₂'.symm) with ⟨rfl, hlast⟩
      refine ⟨fun k => ?_, hlast⟩
      have hne := hlane hapart
      rw [List.filter_append, List.filter_append]
      congr 1
      -- of two lanes, at most one is looked at
      by_cases hk : lane m = k
      · have hk' : lane n ≠ k := fun heq => hne (hk.trans heq.symm)
        simp [hk, hk']
      · simp [List.filter_cons, hk]

/-- Schedules that agree on every lane reach alike states, and every lane gets
the same answers in the same order. -/
theorem run (hlane : ∀ {m n}, apart m n → lane m ≠ lane n) {s s' t t' : S} {r r' : List (M × A)}
    (hs : ready s) (hs' : ready s') (halike : alike s s') (hr : WorksOff step s r t)
    (hr' : WorksOff step s' r' t')
    (hlanes : SameLanes lane (r.map Prod.fst) (r'.map Prod.fst))
    (hapart : ∀ m ∈ r.map Prod.fst, ∀ n ∈ r.map Prod.fst, lane m ≠ lane n → apart m n) :
    SameLanes (fun x => lane x.1) r r' ∧ alike t t' := by
  have hswaps := swaps_of_sameLanes hlanes hapart
  clear hlanes hapart
  generalize hl : r.map Prod.fst = l at hswaps
  induction hswaps using Relation.ReflTransGen.head_induction_on generalizing r t with
  | refl =>
      rcases h.same_run hs hs' halike hr hr' hl with ⟨rfl, hlast⟩
      exact ⟨fun _ => rfl, hlast⟩
  | @head l l₁ hswap _ ih =>
      rcases h.exists_run s l₁ with ⟨r₁, t₁, hr₁, hl₁⟩
      rw [← hl, ← hl₁] at hswap
      rcases h.swapped_run hlane hs hr hr₁ hswap with ⟨hsame, hmid⟩
      rcases ih hr₁ hl₁ with ⟨hsame', hlast⟩
      exact ⟨hsame.trans hsame', h.equivalence.trans hmid hlast⟩

end Confluent

end Runs

end Lib
