import CarRepairShop.Lib.CheckDigit
import CarRepairShop.Validators
import Mathlib.Data.Set.Insert

/-! # Tax ids

`validateCPF` and `validateCNPJ` accept the numbers with two check digits modulo
11, in any formatting. The two functions compute the digit by different formulas;
`Lib/CheckDigit` has the definition and why the formulas agree with it.
-/

namespace CarRepairShop

open Lib.CheckDigit

/-! ## Digits of a string -/

/-- The value of a decimal digit. -/
def decimal? (c : Char) : Option (Fin 10) :=
  if h : 48 ≤ c.toNat ∧ c.toNat ≤ 57 then some ⟨c.toNat - 48, by omega⟩ else none

/-- The decimal digits of a string, in order, without what formats them. -/
def decimalDigits (s : String) : List (Fin 10) := s.toList.filterMap decimal?

/-- The character of a digit. -/
def digitCharacter (d : Fin 10) : Char := Nat.digitChar d

@[simp] theorem digitValue_digitCharacter (d : Fin 10) : digitValue (digitCharacter d) = d := by
  decide +revert

@[simp] theorem decimal?_digitCharacter (d : Fin 10) : decimal? (digitCharacter d) = some d := by
  decide +revert

theorem digitCharacter_inj {d e : Fin 10} : digitCharacter d = digitCharacter e ↔ d = e := by
  decide +revert

theorem decimal?_eq_some {c : Char} {d : Fin 10} (h : decimal? c = some d) : digitCharacter d = c := by
  unfold decimal? at h
  split at h
  · next hrange =>
    cases h
    have hcharacter : ∀ d : Fin 10, (digitCharacter d).toNat = d + 48 := by decide
    rw [← Char.toNat_inj, hcharacter]
    exact Nat.sub_add_cancel hrange.1
  · cases h

theorem isDigit_eq_isSome (c : Char) : c.isDigit = (decimal? c).isSome := by
  have hdigit : c.isDigit = true ↔ 48 ≤ c.toNat ∧ c.toNat ≤ 57 := by
    simp only [Char.isDigit, Bool.and_eq_true, decide_eq_true_eq, ge_iff_le]
    exact Iff.rfl
  rw [Bool.eq_iff_iff, hdigit]
  unfold decimal?
  split <;> simp [*]

/-- What the validators keep of a string are the characters of its digits. -/
theorem onlyDigits_eq (s : String) : onlyDigits s = (decimalDigits s).map digitCharacter := by
  unfold onlyDigits decimalDigits
  induction s.toList with
  | nil => rfl
  | cons c cs ih =>
      cases hc : decimal? c with
      | none =>
          rw [List.filter_cons_of_neg (by simp [isDigit_eq_isSome, hc]), List.filterMap_cons_none hc]
          exact ih
      | some d =>
          rw [List.filter_cons_of_pos (by simp [isDigit_eq_isSome, hc]), List.filterMap_cons_some hc,
            List.map_cons, decimal?_eq_some hc, ih]

/-- Any digits are those of some string. -/
theorem exists_decimalDigits (ds : List (Fin 10)) : ∃ s, decimalDigits s = ds := by
  refine ⟨String.ofList (ds.map digitCharacter), ?_⟩
  unfold decimalDigits
  rw [String.toList_ofList]
  induction ds with
  | nil => rfl
  | cons d ds ih =>
      rw [List.map_cons, List.filterMap_cons_some (decimal?_digitCharacter d), ih]

/-! ## The two formulas -/

/-- The weights of a CPF: from 2 at the right end. -/
def cpfWeight (k : ℕ) : ℕ := k + 2

/-- The weights of a CNPJ: 2 to 9 from the right end, and again. -/
def cnpjWeight (k : ℕ) : ℕ := k % 8 + 2

example : (List.range 9).reverse.map cpfWeight = [10, 9, 8, 7, 6, 5, 4, 3, 2] := by decide

theorem repeatedDigit_map {d e : Fin 10} {ds : List (Fin 10)} :
    repeatedDigit ((d :: e :: ds).map digitCharacter) = true ↔ Repeated (d :: e :: ds) := by
  unfold repeatedDigit Repeated
  simp only [List.map_cons, List.all_eq_true, beq_iff_eq]
  constructor
  · intro h
    have hall : ∀ x ∈ d :: e :: ds, x = d := by
      intro x hx
      rcases List.mem_cons.mp hx with rfl | hx
      · rfl
      · refine digitCharacter_inj.mp (h _ ?_)
        rw [← List.map_cons]
        exact List.mem_map_of_mem hx
    intro x hx y hy
    rw [hall x hx, hall y hy]
  · intro h c hc
    rw [← List.map_cons] at hc
    rcases List.mem_map.mp hc with ⟨x, hx, rfl⟩
    rw [h x (List.mem_cons_of_mem _ hx) d List.mem_cons_self]

/-- The sum of `validateCPF`, from position `k` on. -/
theorem cpf_sum_eq (ds : List (Fin 10)) (k : ℕ) :
    (((ds.map digitCharacter).zipIdx k).map fun (c, i) =>
      digitValue c * (ds.length + 1 + k - i)).sum = weightedSum cpfWeight ds := by
  induction ds generalizing k with
  | nil => rfl
  | cons d ds ih =>
      have hrest : ∀ i, ds.length + 1 + 1 + k - i = ds.length + 1 + (k + 1) - i := by
        intro i
        omega
      have hhead : ds.length + 1 + 1 + k - k = cpfWeight ds.length := by
        unfold cpfWeight
        omega
      simp only [List.map_cons, List.zipIdx_cons, List.sum_cons, List.length_cons, weightedSum,
        digitValue_digitCharacter, hhead]
      simp only [hrest, ih]

theorem cpfDigit_eq (ds : List (Fin 10)) :
    cpfDigit (ds.map digitCharacter) (ds.length + 1) = (checkDigit cpfWeight ds : ℕ) := by
  have hsum := cpf_sum_eq ds 0
  simp only [Nat.add_zero] at hsum
  unfold cpfDigit
  rw [hsum]
  exact (complement_eq_mul 10 _).symm

/-- The sum of `validateCNPJ`, with the weights written out. -/
theorem cnpj_sum_eq (weight : ℕ → ℕ) (ds : List (Fin 10)) :
    (List.zipWith (fun c w => digitValue c * w) (ds.map digitCharacter)
      ((List.range ds.length).reverse.map weight)).sum = weightedSum weight ds := by
  induction ds with
  | nil => rfl
  | cons d ds ih =>
      rw [List.length_cons, List.range_succ, List.reverse_append]
      simp only [List.reverse_singleton, List.singleton_append, List.map_cons, List.zipWith_cons_cons,
        List.sum_cons, weightedSum, digitValue_digitCharacter, ih]

theorem cnpjDigit_eq (ds : List (Fin 10)) {weights : List ℕ}
    (h : weights = (List.range ds.length).reverse.map cnpjWeight) :
    cnpjDigit (ds.map digitCharacter) weights = (checkDigit cnpjWeight ds : ℕ) := by
  unfold cnpjDigit
  rw [h, cnpj_sum_eq]
  rfl

/-! ## The validators -/

/-- A check on the character at `i` is one on the digit there. -/
theorem eq_digitValue_getD {ds : List (Fin 10)} {i : ℕ} (hi : i < ds.length) (x : Fin 10) :
    (x : ℕ) = digitValue ((ds.map digitCharacter).getD i '0') ↔ ds[i]? = some x := by
  rw [List.getD_eq_getElem?_getD, List.getElem?_map, List.getElem?_eq_getElem hi, Option.map_some,
    Option.getD_some, digitValue_digitCharacter, Option.some.injEq, Fin.val_inj, eq_comm]

/-- What the two validators have in common: `first` and `second` are the check digits they
compute of the digits before. -/
theorem certified_of_digits {weight : ℕ → ℕ} {n first second : ℕ} {ds : List (Fin 10)}
    (hfirst : ds.length = n + 2 → first = (checkDigit weight (ds.take n) : ℕ))
    (hsecond : ds.length = n + 2 → second = (checkDigit weight (ds.take (n + 1)) : ℕ)) :
    (if (ds.map digitCharacter).length ≠ n + 2 then false
      else if repeatedDigit (ds.map digitCharacter) then false
      else first == digitValue ((ds.map digitCharacter).getD n '0')
        && second == digitValue ((ds.map digitCharacter).getD (n + 1) '0')) = true ↔
      Certified weight n ds := by
  rw [List.length_map]
  by_cases hlength : ds.length = n + 2
  swap
  · rw [if_pos hlength]
    exact ⟨fun h => absurd h Bool.false_ne_true, fun h => absurd h.length hlength⟩
  rw [if_neg (not_not.mpr hlength)]
  have hrepeated : repeatedDigit (ds.map digitCharacter) = true ↔ Repeated ds := by
    match ds, hlength with
    | d :: e :: ds, _ => exact repeatedDigit_map
  by_cases hsame : Repeated ds
  · rw [if_pos (hrepeated.mpr hsame)]
    exact ⟨fun h => absurd h Bool.false_ne_true, fun h => absurd hsame h.varied⟩
  rw [if_neg (fun h => hsame (hrepeated.mp h)), Bool.and_eq_true, beq_iff_eq, beq_iff_eq,
    hfirst hlength, hsecond hlength, eq_digitValue_getD (by omega), eq_digitValue_getD (by omega)]
  constructor
  · rintro ⟨h₁, h₂⟩
    exact ⟨hlength, hsame, h₁, h₂⟩
  · intro h
    exact ⟨h.first, h.second⟩

theorem validateCPF_iff (s : String) :
    validateCPF s = true ↔ Certified cpfWeight 9 (decimalDigits s) := by
  unfold validateCPF
  rw [onlyDigits_eq]
  generalize decimalDigits s = ds
  apply certified_of_digits
  · intro hlength
    have htake : (ds.take 9).length = 9 := by simp [hlength]
    have hdigit := cpfDigit_eq (ds.take 9)
    rw [htake] at hdigit
    rw [← List.map_take, hdigit]
  · intro hlength
    have htake : (ds.take 10).length = 10 := by simp [hlength]
    have hdigit := cpfDigit_eq (ds.take 10)
    rw [htake] at hdigit
    rw [← List.map_take, hdigit]

theorem validateCNPJ_iff (s : String) :
    validateCNPJ s = true ↔ Certified cnpjWeight 12 (decimalDigits s) := by
  unfold validateCNPJ
  rw [onlyDigits_eq]
  generalize decimalDigits s = ds
  apply certified_of_digits
  · intro hlength
    have htake : (ds.take 12).length = 12 := by simp [hlength]
    rw [← List.map_take, cnpjDigit_eq]
    rw [htake]
    decide
  · intro hlength
    have htake : (ds.take 13).length = 13 := by simp [hlength]
    rw [← List.map_take, cnpjDigit_eq]
    rw [htake]
    decide

/-! ## Completions -/

/-- The pairs of digits that complete a base to the digits of an accepted string. -/
def completions (validate : String → Bool) (base : List (Fin 10)) : Set (Fin 10 × Fin 10) :=
  { c | ∃ s, decimalDigits s = base ++ [c.1, c.2] ∧ validate s = true }

/-- A base has its own completion, or none when that repeats one digit. -/
theorem completions_eq {validate : String → Bool} {weight : ℕ → ℕ} {n : ℕ}
    (hvalidate : ∀ s, validate s = true ↔ Certified weight n (decimalDigits s))
    {base : List (Fin 10)} (hlength : base.length = n) :
    completions validate base =
      if Repeated (completed weight base) then ∅ else {completion weight base} := by
  subst hlength
  ext c
  have hmem : c ∈ completions validate base ↔
      c = completion weight base ∧ ¬Repeated (base ++ [c.1, c.2]) := by
    rw [← certified_iff]
    constructor
    · rintro ⟨s, hs, haccepted⟩
      rw [hvalidate, hs] at haccepted
      exact haccepted
    · intro h
      rcases exists_decimalDigits (base ++ [c.1, c.2]) with ⟨s, hs⟩
      refine ⟨s, hs, ?_⟩
      rw [hvalidate, hs]
      exact h
  rw [hmem]
  split
  · next hrepeated =>
    constructor
    · rintro ⟨rfl, hvaried⟩
      exact absurd hrepeated hvaried
    · intro hc
      cases hc
  · next hvaried =>
    constructor
    · intro h
      exact h.1
    · rintro rfl
      exact ⟨rfl, hvaried⟩

/-- Both validators accept exactly the digits that the definition modulo 11 certifies, so every
base has one completion, or none when that repeats one digit. -/
theorem tax_ids_certified :
    (∀ s, validateCPF s = true ↔ Certified cpfWeight 9 (decimalDigits s)) ∧
    (∀ s, validateCNPJ s = true ↔ Certified cnpjWeight 12 (decimalDigits s)) ∧
    (∀ base : Fin 9 → Fin 10, completions validateCPF (List.ofFn base) =
      if Repeated (completed cpfWeight (List.ofFn base)) then ∅
      else {completion cpfWeight (List.ofFn base)}) ∧
    ∀ base : Fin 12 → Fin 10, completions validateCNPJ (List.ofFn base) =
      if Repeated (completed cnpjWeight (List.ofFn base)) then ∅
      else {completion cnpjWeight (List.ofFn base)} := by
  refine ⟨validateCPF_iff, validateCNPJ_iff, ?_, ?_⟩
  · intro base
    exact completions_eq validateCPF_iff List.length_ofFn
  · intro base
    exact completions_eq validateCNPJ_iff List.length_ofFn

-- a first sum that leaves the remainder one: its check digit is zero
example : completion (b := 10) cpfWeight [0, 5, 2, 7, 9, 5, 4, 9, 0] = (0, 2) := by decide

end CarRepairShop
