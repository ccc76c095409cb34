import Mathlib.Data.List.Basic

/-! # Calls and their answers

A component writes down the calls it makes and the answers it gets. `AllAnswered`
says which calls may lack an answer: those that are still open. A component that
waits for its open calls before it ends leaves none behind (`AllAnswered.all`).

`After` bounds what is written down after some entry.
-/

namespace OpenCalls

variable {Note Call : Type}

/-- Each call of the log was answered later, or is still open. -/
def AllAnswered (calls answers : Note → Option Call) (isOpen : Call → Prop) (log : List Note) : Prop :=
  ∀ before n after c, log = before ++ n :: after → calls n = some c →
    (∃ a ∈ after, answers a = some c) ∨ isOpen c

section Answers

variable {calls answers : Note → Option Call} {isOpen isOpen' : Call → Prop} {log : List Note}

theorem AllAnswered.nil : AllAnswered calls answers isOpen [] := by
  intro before n after c hlog
  simp at hlog

/-- One more entry: what was open is answered by it or stays open, and a call is open. -/
theorem AllAnswered.append (h : AllAnswered calls answers isOpen log) {n : Note}
    (hopen : ∀ c, isOpen c → answers n = some c ∨ isOpen' c)
    (hcall : ∀ c, calls n = some c → isOpen' c) :
    AllAnswered calls answers isOpen' (log ++ [n]) := by
  intro before m after c hlog hm
  rcases List.eq_nil_or_concat after with rfl | ⟨after', last, rfl⟩
  · -- the call is the new entry
    have hlast := (List.append_inj' hlog rfl).2
    rw [List.cons.injEq] at hlast
    rw [← hlast.1] at hm
    exact .inr (hcall c hm)
  · rw [List.concat_eq_append, ← List.cons_append, ← List.append_assoc] at hlog
    rcases List.append_inj' hlog rfl with ⟨hold, hlast⟩
    rw [List.cons.injEq] at hlast
    rcases h before m after' c hold hm with ⟨a, ha, hanswer⟩ | hstill
    · exact .inl ⟨a, by simp [ha], hanswer⟩
    · rcases hopen c hstill with hnow | hstill'
      · exact .inl ⟨n, by simp [← hlast.1], hnow⟩
      · exact .inr hstill'

theorem AllAnswered.mono (h : AllAnswered calls answers isOpen log)
    (hopen : ∀ c, isOpen c → isOpen' c) : AllAnswered calls answers isOpen' log := by
  intro before n after c hlog hn
  rcases h before n after c hlog hn with hanswer | hstill
  · exact .inl hanswer
  · exact .inr (hopen c hstill)

/-- Nothing is open, so every call was answered. -/
theorem AllAnswered.all (h : AllAnswered calls answers isOpen log) (hnone : ∀ c, ¬isOpen c)
    {before : List Note} {n : Note} {after : List Note} {c : Call} (hlog : log = before ++ n :: after)
    (hn : calls n = some c) : ∃ a ∈ after, answers a = some c := by
  rcases h before n after c hlog hn with hanswer | hstill
  · exact hanswer
  · exact absurd hstill (hnone c)

end Answers

/-- After each entry that marks the log, the log has this property. -/
def After (marks : Note → Bool) (P : List Note → Prop) (log : List Note) : Prop :=
  ∀ before n after, log = before ++ n :: after → marks n = true → P after

section Marks

variable {marks : Note → Bool} {P Q : List Note → Prop} {log : List Note}

theorem After.nil : After marks P [] := by
  intro before n after hlog
  simp at hlog

/-- Nothing marks the log. -/
theorem After.unmarked (h : ∀ n ∈ log, marks n = false) : After marks P log := by
  intro before n after hlog hn
  rw [h n (by simp [hlog])] at hn
  cases hn

/-- One more entry. -/
theorem After.append (h : After marks P log) {n : Note}
    (hgrow : ∀ after, P after → Q (after ++ [n])) (hmark : marks n = true → Q []) :
    After marks Q (log ++ [n]) := by
  intro before m after hlog hm
  rcases List.eq_nil_or_concat after with rfl | ⟨after', last, rfl⟩
  · have hlast := (List.append_inj' hlog rfl).2
    rw [List.cons.injEq] at hlast
    rw [← hlast.1] at hm
    exact hmark hm
  · rw [List.concat_eq_append, ← List.cons_append, ← List.append_assoc] at hlog
    rcases List.append_inj' hlog rfl with ⟨hold, hlast⟩
    rw [List.cons.injEq] at hlast
    have hafter := hgrow after' (h before m after' hold hm)
    rw [hlast.1] at hafter
    rw [List.concat_eq_append]
    exact hafter

theorem After.mono (h : After marks P log) (hPQ : ∀ after, P after → Q after) :
    After marks Q log := by
  intro before n after hlog hn
  exact hPQ after (h before n after hlog hn)

end Marks

end OpenCalls
