import CarRepairShop.Lib.Table

/-! # Columns that are unique up to their spelling

A column holds spellings, and two spellings may denote one thing. A unique index
compares spellings, so a row is stored unless its very spelling is taken. Of a
table with one row for each thing denoted, storing a row keeps that exactly when
nobody else has the thing in another spelling (`Table.denotesOnce_put_iff`).

`forall_steps_iff` is about runs: what every step does as long as the steps
before it did is right at every step exactly when no step is bad.
-/

namespace Lib

namespace Table

variable {α κ σ δ : Type} [DecidableEq κ] {key : α → κ} {check : α → Prop}

/-- Each value of the column is in one row. -/
def Unique (t : Table key check) {β : Type} (column : α → β) : Prop :=
  ∀ x ∈ t.rows, ∀ y ∈ t.rows, column x = column y → key x = key y

/-- Each thing that the spellings of the column denote is in one row. -/
def DenotesOnce (t : Table key check) (spelling : α → σ) (denote : σ → δ) : Prop :=
  t.Unique fun x => denote (spelling x)

/-- Another row has what `r` denotes, in another spelling. -/
def Respells (t : Table key check) (spelling : α → σ) (denote : σ → δ) (r : α) : Prop :=
  ∃ x ∈ t.rows, key x ≠ key r ∧ denote (spelling x) = denote (spelling r) ∧
    spelling x ≠ spelling r

theorem mem_put (t : Table key check) {r x : α} (hr : check r) :
    x ∈ (t.put r hr).rows ↔ x = r ∨ (x ∈ t.rows ∧ key x ≠ key r) := by
  constructor
  · intro hx
    have hfind := find?_of_mem hx
    rw [find?_put] at hfind
    split at hfind
    · exact .inl (Option.some.inj hfind).symm
    · next hne => exact .inr ⟨mem_of_find? hfind, fun heq => hne heq.symm⟩
  · rintro (rfl | ⟨hx, hne⟩)
    · exact mem_of_find? (k := key x) (by rw [find?_put, if_pos rfl])
    · refine mem_of_find? (k := key x) ?_
      rw [find?_put, if_neg fun heq => hne heq.symm]
      exact find?_of_mem hx

/-- A unique index lets a value pass when nobody else has it. -/
theorem index_free_iff {β : Type} [DecidableEq β] {rows : List α} {column : α → β}
    {b : β} {k : κ} :
    rows.any (fun x => decide (column x = b ∧ key x ≠ k)) = false ↔
      ∀ x ∈ rows, column x = b → key x = k := by
  simp

section Unique

variable {t t' : Table key check} {β : Type} {column : α → β}

omit [DecidableEq κ] in
/-- With rows gone, a column stays unique. -/
theorem Unique.of_subset (h : t.Unique column) (hrows : ∀ x ∈ t'.rows, x ∈ t.rows) :
    t'.Unique column := by
  intro x hx y hy
  exact h x (hrows x hx) y (hrows y hy)

/-- The value of a unique column determines the row. -/
theorem Unique.row_eq (h : t.Unique column) {x y : α} (hx : x ∈ t.rows) (hy : y ∈ t.rows)
    (hcolumn : column x = column y) : x = y := by
  have hfind := find?_of_mem hx
  rw [h x hx y hy hcolumn, find?_of_mem hy, Option.some.injEq] at hfind
  exact hfind.symm

/-- A row keeps a column unique exactly when no other row has its value. -/
theorem unique_put_iff (h : t.Unique column) {r : α} (hr : check r) :
    (t.put r hr).Unique column ↔ ∀ x ∈ t.rows, column x = column r → key x = key r := by
  constructor
  · intro hput x hx hcolumn
    by_contra hne
    exact hne (hput x ((mem_put t hr).mpr (.inr ⟨hx, hne⟩)) r ((mem_put t hr).mpr (.inl rfl)) hcolumn)
  · intro hfree x hx y hy hcolumn
    rcases (mem_put t hr).mp hx with rfl | ⟨hold, -⟩
    · rcases (mem_put t hr).mp hy with rfl | ⟨hold', -⟩
      · rfl
      · exact (hfree y hold' hcolumn.symm).symm
    · rcases (mem_put t hr).mp hy with rfl | ⟨hold', -⟩
      · exact hfree x hold hcolumn
      · exact h x hold y hold' hcolumn

end Unique

section Spellings

variable {t : Table key check} {spelling : α → σ} {denote : σ → δ} {r : α}

/-- Storing a row whose spelling nobody else has. -/
theorem denotesOnce_put_iff (h : t.DenotesOnce spelling denote) (hr : check r)
    (hfree : ∀ x ∈ t.rows, spelling x = spelling r → key x = key r) :
    (t.put r hr).DenotesOnce spelling denote ↔ ¬t.Respells spelling denote r := by
  unfold DenotesOnce
  rw [unique_put_iff h hr]
  constructor
  · rintro hother ⟨x, hx, hne, hdenote, -⟩
    exact hne (hother x hx hdenote)
  · intro hno x hx hdenote
    by_contra hne
    exact hno ⟨x, hx, hne, hdenote, fun hsame => hne (hfree x hx hsame)⟩

/-- A spelling that is taken does not respell. -/
theorem DenotesOnce.not_respells (h : t.DenotesOnce spelling denote) {x : α} (hx : x ∈ t.rows)
    (hsame : spelling x = spelling r) : ¬t.Respells spelling denote r := by
  rintro ⟨y, hy, -, hdenote, hne⟩
  have heq : y = x := Unique.row_eq h hy hx (hdenote.trans (congrArg denote hsame.symm))
  exact hne (heq ▸ hsame)

end Spellings

end Table

/-! ## Runs -/

section Runs

variable {σ α : Type} {step : σ → α → σ} {I : σ → Prop} {Kept Bad : σ → α → Prop}

/-- Every step of a run is kept exactly when none is bad, if that is so of a step from a good
state, and a step that is kept leads to one. -/
theorem forall_steps_iff (hiff : ∀ s a, I s → (Kept s a ↔ ¬Bad s a))
    (hnext : ∀ s a, I s → Kept s a → I (step s a)) {s : σ} (h : I s) (run : List α) :
    (∀ before a after, run = before ++ a :: after → Kept (before.foldl step s) a) ↔
      ∀ before a after, run = before ++ a :: after → ¬Bad (before.foldl step s) a := by
  induction run generalizing s with
  | nil => simp
  | cons b rest ih =>
      -- the first step, and then the steps of the rest
      have hsplit : ∀ P : σ → α → Prop,
          (∀ before a after, b :: rest = before ++ a :: after → P (before.foldl step s) a) ↔
            P s b ∧ ∀ before a after, rest = before ++ a :: after →
              P (before.foldl step (step s b)) a := by
        intro P
        constructor
        · intro hall
          refine ⟨hall [] b rest rfl, ?_⟩
          intro before a after hrest
          exact hall (b :: before) a after (by rw [hrest, List.cons_append])
        · rintro ⟨hfirst, hrest⟩ before a after hrun
          cases before with
          | nil =>
              rw [List.nil_append, List.cons.injEq] at hrun
              rw [← hrun.1]
              exact hfirst
          | cons c before =>
              rw [List.cons_append, List.cons.injEq] at hrun
              rw [← hrun.1]
              exact hrest before a after hrun.2
      rw [hsplit Kept, hsplit fun s a => ¬Bad s a, ← hiff s b h]
      refine and_congr_right ?_
      intro hkept
      exact ih (hnext s b h hkept)

end Runs

end Lib
