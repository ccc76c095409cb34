import Mathlib.Data.List.Nodup
import Mathlib.Order.Lattice

/-! # Reads in the order of a key

`ORDER BY key` answers the rows by ascending key, and rows of one key in any
order. So what is stored in that order is read back in it, whichever sort the
database uses, exactly when no two rows share a key, as far as the reader can tell
two neighbours apart (`forall_sort_iff`).
-/

namespace Lib

variable {α κ : Type} [LinearOrder κ] {key : α → κ} {rows answer : List α}

/-- The answer has the rows, by ascending key. -/
structure Ordered (key : α → κ) (rows answer : List α) : Prop where
  perm : answer.Perm rows
  ascending : answer.Pairwise fun a b => key a ≤ key b

/-- A sort that `ORDER BY key` allows. -/
def OrdersBy (key : α → κ) (sort : List α → List α) : Prop := ∀ rows, Ordered key rows (sort rows)

/-- Rows that are stored in order, each with a key of its own, have one answer. -/
theorem Ordered.eq (h : Ordered key rows answer) (hrows : rows.Pairwise fun a b => key a ≤ key b)
    (hnodup : (rows.map key).Nodup) : answer = rows := by
  refine List.Perm.eq_of_pairwise ?_ h.ascending hrows h.perm
  intro a b ha hb hab hba
  exact List.inj_on_of_nodup_map hnodup (h.perm.mem_iff.mp ha) hb (le_antisymm hab hba)

/-- Of rows that are stored in order, two neighbours share a key when any two do. -/
theorem exists_tie (hrows : rows.Pairwise fun a b => key a ≤ key b)
    (hdup : ¬(rows.map key).Nodup) :
    ∃ before a b after, rows = before ++ a :: b :: after ∧ key a = key b := by
  induction rows with
  | nil => exact absurd List.nodup_nil hdup
  | cons a rest ih =>
      rw [List.pairwise_cons] at hrows
      by_cases hrest : (rest.map key).Nodup
      · -- the first row shares its key with a later one, and so with the next
        have hmem : key a ∈ rest.map key := by
          by_contra hno
          exact hdup (List.nodup_cons.mpr ⟨hno, hrest⟩)
        rcases List.mem_map.mp hmem with ⟨c, hc, hkey⟩
        cases rest with
        | nil => cases hc
        | cons b after =>
            have hle : key b ≤ key c := by
              rcases List.mem_cons.mp hc with rfl | hc
              · exact le_refl _
              · exact (List.pairwise_cons.mp hrows.2).1 c hc
            have hkeys : key a = key b :=
              le_antisymm (hrows.1 b List.mem_cons_self) (hle.trans hkey.le)
            exact ⟨[], a, b, after, rfl, hkeys⟩
      · rcases ih hrows.2 hrest with ⟨before, b, c, after, rfl, hkeys⟩
        exact ⟨a :: before, b, c, after, rfl, hkeys⟩

/-- Neighbours that share a key may be answered the other way round. -/
theorem Ordered.swap {before after : List α} {a b : α}
    (h : (before ++ a :: b :: after).Pairwise fun x y => key x ≤ key y) (hkeys : key a = key b) :
    Ordered key (before ++ a :: b :: after) (before ++ b :: a :: after) where
  perm := (List.Perm.swap a b after).append_left before
  ascending := by
    rw [List.pairwise_append, List.pairwise_cons, List.pairwise_cons] at h ⊢
    rcases h with ⟨hbefore, ⟨ha, hb, hafter⟩, hcross⟩
    refine ⟨hbefore, ⟨?_, ?_, hafter⟩, ?_⟩
    · intro x hx
      rcases List.mem_cons.mp hx with rfl | hx
      · exact hkeys.ge
      · exact hb x hx
    · intro x hx
      exact ha x (List.mem_cons_of_mem b hx)
    · intro x hx y hy
      refine hcross x hx y ?_
      simp only [List.mem_cons] at hy ⊢
      tauto

/-- Every answer is that of some sort. -/
theorem Ordered.exists_sort (h : Ordered key rows answer) :
    ∃ sort, OrdersBy key sort ∧ sort rows = answer := by
  classical
  refine ⟨fun rows' => if rows' = rows then answer
    else rows'.mergeSort fun a b => decide (key a ≤ key b), ?_, if_pos rfl⟩
  intro rows'
  by_cases hsame : rows' = rows
  · simp only [hsame, if_true]
    exact h
  · simp only [hsame, if_false]
    refine ⟨List.mergeSort_perm _ _, ?_⟩
    have htrans : ∀ a b c : α, decide (key a ≤ key b) = true → decide (key b ≤ key c) = true →
        decide (key a ≤ key c) = true := by
      intro a b c hab hbc
      simp only [decide_eq_true_eq] at hab hbc ⊢
      exact hab.trans hbc
    have htotal : ∀ a b : α, (decide (key a ≤ key b) || decide (key b ≤ key a)) = true := by
      intro a b
      simpa using le_total (key a) (key b)
    exact (List.pairwise_mergeSort htrans htotal rows').imp fun hle => of_decide_eq_true hle

/-- What holds of the rows as they are stored, and of no exchange of neighbours that share a key,
holds of every answer exactly when no two rows share a key. -/
theorem forall_sort_iff {P : List α → Prop} (hrows : rows.Pairwise fun a b => key a ≤ key b)
    (hstored : P rows)
    (hswap : ∀ before a b after, rows = before ++ a :: b :: after → key a = key b →
      ¬P (before ++ b :: a :: after)) :
    (∀ sort, OrdersBy key sort → P (sort rows)) ↔ (rows.map key).Nodup := by
  constructor
  · intro hall
    by_contra hdup
    rcases exists_tie hrows hdup with ⟨before, a, b, after, rfl, hkeys⟩
    rcases (Ordered.swap hrows hkeys).exists_sort with ⟨sort, hsort, hanswer⟩
    have hread := hall sort hsort
    rw [hanswer] at hread
    exact hswap before a b after rfl hkeys hread
  · intro hnodup sort hsort
    rw [(hsort rows).eq hrows hnodup]
    exact hstored

end Lib
