import Mathlib.Data.Fin.Basic
import Mathlib.Data.Nat.Notation
import Mathlib.Tactic.Ring

/-! # Check digits

A number in base `b` that ends with two check digits modulo `b + 1`. Each is
computed from all the digits before it: their sum, each times a weight that
depends on how many digits stand to its right, leaves a remainder, and the check
digit complements it to `b + 1`. A remainder of zero or one has no digit as its
complement, so its check digit is zero.

A base number has one completion (`certified_iff`); a number that repeats one
digit is never accepted.
-/

namespace Lib.CheckDigit

variable {b : ℕ}

/-- The sum of the digits, each times its weight: `weight k` is that of the
digit with `k` digits to its right. -/
def weightedSum (weight : ℕ → ℕ) : List (Fin b) → ℕ
  | [] => 0
  | d :: ds => d * weight ds.length + weightedSum weight ds

/-- What complements the sum to a multiple of `b + 1`, as far as a digit can. -/
def complement (b sum : ℕ) : ℕ := if sum % (b + 1) < 2 then 0 else b + 1 - sum % (b + 1)

theorem complement_lt [NeZero b] (sum : ℕ) : complement b sum < b := by
  have hb : 0 < b := Nat.pos_of_neZero b
  unfold complement
  split <;> omega

/-- The check digit of the digits before it. -/
def checkDigit [NeZero b] (weight : ℕ → ℕ) (ds : List (Fin b)) : Fin b :=
  ⟨complement b (weightedSum weight ds), complement_lt _⟩

/-- `b` is minus one modulo `b + 1`, so the complement can also be had by a product. -/
theorem complement_eq_mul (b sum : ℕ) :
    complement b sum = if sum * b % (b + 1) ≥ b then 0 else sum * b % (b + 1) := by
  have hlt : sum % (b + 1) < b + 1 := Nat.mod_lt _ (Nat.succ_pos b)
  have hmod : sum * b % (b + 1) = sum % (b + 1) * b % (b + 1) := by
    rw [Nat.mul_mod, Nat.mod_eq_of_lt (Nat.lt_succ_self b)]
  unfold complement
  rw [hmod]
  generalize sum % (b + 1) = r at hlt
  cases r with
  | zero => simp
  | succ r =>
      have hprod : (r + 1) * b = (b - r) + r * (b + 1) := by
        have hle : r ≤ b := by omega
        obtain ⟨k, rfl⟩ := Nat.exists_eq_add_of_le hle
        rw [Nat.add_sub_cancel_left]
        ring
      have hrem : (r + 1) * b % (b + 1) = b - r := by
        rw [hprod, Nat.add_mul_mod_self_right, Nat.mod_eq_of_lt (by omega)]
      rw [hrem]
      by_cases hr : r = 0
      · simp [hr]
      · rw [if_neg (by omega), if_neg (by omega)]
        omega

/-- All digits are the same. -/
def Repeated (ds : List (Fin b)) : Prop := ∀ x ∈ ds, ∀ y ∈ ds, x = y

instance (ds : List (Fin b)) : Decidable (Repeated ds) :=
  inferInstanceAs (Decidable (∀ x ∈ ds, ∀ y ∈ ds, x = y))

section Certified

variable [NeZero b]

/-- A base of `n` digits with its two check digits, not all of them the same. -/
structure Certified (weight : ℕ → ℕ) (n : ℕ) (ds : List (Fin b)) : Prop where
  length : ds.length = n + 2
  varied : ¬Repeated ds
  first : ds[n]? = some (checkDigit weight (ds.take n))
  second : ds[n + 1]? = some (checkDigit weight (ds.take (n + 1)))

/-- The two digits that complete a base. -/
def completion (weight : ℕ → ℕ) (base : List (Fin b)) : Fin b × Fin b :=
  (checkDigit weight base, checkDigit weight (base ++ [checkDigit weight base]))

/-- The base with its two check digits. -/
def completed (weight : ℕ → ℕ) (base : List (Fin b)) : List (Fin b) :=
  base ++ [(completion weight base).1, (completion weight base).2]

/-- A base has no other completion than its own. -/
theorem certified_iff {weight : ℕ → ℕ} (base : List (Fin b)) (c : Fin b × Fin b) :
    Certified weight base.length (base ++ [c.1, c.2]) ↔
      c = completion weight base ∧ ¬Repeated (base ++ [c.1, c.2]) := by
  have hfirst : (base ++ [c.1, c.2])[base.length]? = some c.1 := by simp
  have hsecond : (base ++ [c.1, c.2])[base.length + 1]? = some c.2 := by simp
  have htake : (base ++ [c.1, c.2]).take base.length = base := by simp
  have htake' : (base ++ [c.1, c.2]).take (base.length + 1) = base ++ [c.1] := by
    simp [List.take_append, List.take_of_length_le]
  constructor
  · intro h
    refine ⟨?_, h.varied⟩
    have h₁ := h.first
    have h₂ := h.second
    rw [hfirst, htake, Option.some.injEq] at h₁
    rw [hsecond, htake', Option.some.injEq] at h₂
    unfold completion
    rw [← h₁, ← h₂]
  · rintro ⟨rfl, hvaried⟩
    constructor
    · simp
    · exact hvaried
    · rw [hfirst, htake]
      rfl
    · rw [hsecond, htake']
      rfl

end Certified

end Lib.CheckDigit
