import Mathlib.Algebra.BigOperators.Group.List.Basic
import Mathlib.Algebra.Ring.Int.Defs
import Mathlib.Data.Fintype.EquivFin
import Mathlib.Data.List.Nodup

/-! # Tables with a primary key and row checks

A relational table as a list of rows that carries its own constraints: no
two rows share a key, and every row satisfies the row check. Both are fields
of the structure, so a table that violates them cannot be built, and the
operations below (`put`, `erase`) are total.

The rows keep their order: `put` replaces the row of the same key in place,
or appends the row when the key is new.
-/

namespace Lib

/-- A table over rows `α`: `key` is its primary key, `check` its row check. -/
structure Table {α κ : Type} (key : α → κ) (check : α → Prop) where
  rows : List α
  nodup : (rows.map key).Nodup
  checked : ∀ r ∈ rows, check r

/-- Replaces the row with the key of `r`, or appends `r`. -/
def putRow {α κ : Type} [DecidableEq κ] (key : α → κ) (r : α) : List α → List α
  | [] => [r]
  | x :: xs => if key x = key r then r :: xs else x :: putRow key r xs

section PutRow

variable {α κ : Type} [DecidableEq κ] {key : α → κ}

theorem mem_putRow {r x : α} {xs : List α} (h : x ∈ putRow key r xs) : x = r ∨ x ∈ xs := by
  induction xs with
  | nil => exact Or.inl (by simpa [putRow] using h)
  | cons y ys ih =>
      simp only [putRow] at h
      split at h
      · rcases List.mem_cons.mp h with h | h
        · exact Or.inl h
        · exact Or.inr (List.mem_cons_of_mem _ h)
      · rcases List.mem_cons.mp h with h | h
        · exact Or.inr (by simp [h])
        · rcases ih h with h | h
          · exact Or.inl h
          · exact Or.inr (List.mem_cons_of_mem _ h)

/-- The keys after a put are the old ones, and the key of the row. -/
theorem mem_keys_putRow {r : α} {xs : List α} {k : κ} (h : k ∈ (putRow key r xs).map key) :
    k = key r ∨ k ∈ xs.map key := by
  rcases List.mem_map.mp h with ⟨x, hx, rfl⟩
  rcases mem_putRow hx with rfl | hx
  · exact Or.inl rfl
  · exact Or.inr (List.mem_map_of_mem hx)

theorem nodup_putRow {r : α} {xs : List α} (h : (xs.map key).Nodup) :
    ((putRow key r xs).map key).Nodup := by
  induction xs with
  | nil => simp [putRow]
  | cons y ys ih =>
      rw [List.map_cons, List.nodup_cons] at h
      simp only [putRow]
      split
      · next heq =>
        rw [List.map_cons, List.nodup_cons, ← heq]
        exact h
      · next hne =>
        rw [List.map_cons, List.nodup_cons]
        refine ⟨fun hmem => ?_, ih h.2⟩
        rcases mem_keys_putRow hmem with heq | hmem
        · exact hne heq
        · exact h.1 hmem

/-- Looking up a key after a put. -/
theorem find_putRow (r : α) (xs : List α) (k : κ) :
    (putRow key r xs).find? (fun x => key x = k)
      = if key r = k then some r else xs.find? (fun x => key x = k) := by
  induction xs with
  | nil => by_cases h : key r = k <;> simp [putRow, h]
  | cons y ys ih =>
      simp only [putRow]
      by_cases hyr : key y = key r
      · by_cases h : key r = k
        · simp [hyr, h]
        · simp [hyr, h]
      · rw [if_neg hyr]
        by_cases hyk : key y = k
        · have hrk : key r ≠ k := fun h => hyr (hyk.trans h.symm)
          simp [hyk, hrk]
        · simp [hyk, ih]

/-- A sum over the rows changes by the new row less the old one of its key. -/
theorem sum_putRow (f : α → ℤ) (r : α) (xs : List α) :
    ((putRow key r xs).map f).sum
      = (xs.map f).sum - ((xs.find? (fun x => key x = key r)).map f).getD 0 + f r := by
  induction xs with
  | nil => simp [putRow]
  | cons y ys ih =>
      simp only [putRow]
      by_cases h : key y = key r
      · simp [h]
        omega
      · simp [h, ih]
        omega

end PutRow

namespace Table

variable {α κ : Type} [DecidableEq κ] {key : α → κ} {check : α → Prop}

/-- The table without rows. -/
def empty : Table key check where
  rows := []
  nodup := List.nodup_nil
  checked := by simp

/-- The row with key `k`. -/
def find? (t : Table key check) (k : κ) : Option α :=
  t.rows.find? (fun r => key r = k)

/-- Stores a checked row under its key. -/
def put (t : Table key check) (r : α) (h : check r) : Table key check where
  rows := putRow key r t.rows
  nodup := nodup_putRow t.nodup
  checked := by
    intro x hx
    rcases mem_putRow hx with rfl | hx
    · exact h
    · exact t.checked x hx

/-- Removes the row with key `k`. -/
def erase (t : Table key check) (k : κ) : Table key check where
  rows := t.rows.filter (fun r => key r ≠ k)
  nodup := t.nodup.sublist (List.filter_sublist.map key)
  checked := fun r hr => t.checked r (List.mem_of_mem_filter hr)

/-- The sum of `f` over the rows. -/
def sum (t : Table key check) (f : α → ℤ) : ℤ := (t.rows.map f).sum

@[simp] theorem find?_empty (k : κ) : (empty : Table key check).find? k = none := rfl

omit [DecidableEq κ] in
@[simp] theorem sum_empty (f : α → ℤ) : (empty : Table key check).sum f = 0 := rfl

@[simp] theorem find?_put (t : Table key check) (r : α) (h : check r) (k : κ) :
    (t.put r h).find? k = if key r = k then some r else t.find? k :=
  find_putRow r t.rows k

@[simp] theorem find?_erase (t : Table key check) (k k' : κ) :
    (t.erase k).find? k' = if k = k' then none else t.find? k' := by
  simp only [find?, erase, List.find?_filter]
  by_cases h : k = k'
  · subst h
    simp
  · rw [if_neg h]
    congr 1
    funext r
    by_cases hr : key r = k'
    · simp [hr, Ne.symm h]
    · simp [hr]

theorem key_of_find? {t : Table key check} {k : κ} {r : α} (h : t.find? k = some r) :
    key r = k := by
  simpa using List.find?_some h

theorem mem_of_find? {t : Table key check} {k : κ} {r : α} (h : t.find? k = some r) :
    r ∈ t.rows :=
  List.mem_of_find?_eq_some h

/-- Every row found satisfies the check of the table. -/
theorem check_of_find? {t : Table key check} {k : κ} {r : α} (h : t.find? k = some r) :
    check r :=
  t.checked r (mem_of_find? h)

/-- With keys without end, one is free. -/
theorem exists_free [Infinite κ] (t : Table key check) : ∃ k, t.find? k = none := by
  rcases Infinite.exists_notMem_finset (t.rows.map key).toFinset with ⟨k, hk⟩
  rw [List.mem_toFinset, List.mem_map] at hk
  refine ⟨k, List.find?_eq_none.mpr fun r hr hkey => hk ⟨r, hr, ?_⟩⟩
  simpa using hkey

/-- A row of the table is the one found under its key. -/
theorem find?_of_mem {t : Table key check} {r : α} (h : r ∈ t.rows) :
    t.find? (key r) = some r := by
  have hnodup := t.nodup
  unfold find?
  generalize t.rows = rows at h hnodup
  induction rows with
  | nil => cases h
  | cons x xs ih =>
      rw [List.map_cons, List.nodup_cons] at hnodup
      rcases List.mem_cons.mp h with rfl | h
      · simp
      · have hne : key x ≠ key r := fun heq => hnodup.1 (heq ▸ List.mem_map_of_mem h)
        simp [hne, ih h hnodup.2]

/-- Storing a row moves a sum by the new row less the row it replaces. -/
theorem sum_put (t : Table key check) (r : α) (h : check r) (f : α → ℤ) :
    (t.put r h).sum f = t.sum f - ((t.find? (key r)).map f).getD 0 + f r :=
  sum_putRow f r t.rows

omit [DecidableEq κ] in
/-- A sum in which every row counts zero. -/
theorem sum_eq_zero {t : Table key check} {f : α → ℤ} (h : ∀ r ∈ t.rows, f r = 0) :
    t.sum f = 0 := by
  apply List.sum_eq_zero
  intro x hx
  rcases List.mem_map.mp hx with ⟨r, hr, rfl⟩
  exact h r hr

end Table

end Lib
