import Mathlib
import Retrieval.Proofs.Arithmetic

/-!
# Exact arithmetic

The real numbers are the numbers in which the ranking formula is meant. They keep their order, for quotients of counts
of any size, and a term of a corpus that has documents never weighs nothing. Measures of quality take no roots or
logarithms, and are meant in the rational numbers.
-/

set_option autoImplicit false

namespace Retrieval
open Scalar (Le)

noncomputable instance : Scoring ℝ where
  ofNat n := n
  share part whole := part / whole
  divNat x n := x / n
  lt x y := decide (x < y)
  floor x := ⌊x⌋₊
  ofInt? n := some n
  ratio? a b := some (a / b)
  ln := Real.log
  lnNat n := Real.log n
  sqrt := Real.sqrt
  square x := x ^ 2

namespace Exact

scoped instance : Scalar ℚ where
  ofNat n := n
  share part whole := part / whole
  divNat x n := x / n
  lt x y := decide (x < y)
  floor x := ⌊x⌋₊

theorem lt_iff {x y : ℝ} : Scalar.lt x y = true ↔ x < y := decide_eq_true_iff

theorem le_iff {x y : ℝ} : Le x y ↔ x ≤ y := by
  rw [Le, lt_iff, beq_iff_eq, le_iff_lt_or_eq, eq_comm (a := y)]

theorem zero_le_iff {x : ℝ} : Le 0 x ↔ (0 : ℝ) ≤ x := le_iff

theorem one_le_iff {x : ℝ} : Le (Scalar.ofNat 1) x ↔ (1 : ℝ) ≤ x := by
  rw [le_iff]
  show ((1 : ℕ) : ℝ) ≤ x ↔ _
  rw [Nat.cast_one]

theorem zero_lt_iff {x : ℝ} : Scalar.lt 0 x = true ↔ (0 : ℝ) < x := lt_iff

/-- The real numbers keep their order, for counts of any size. -/
theorem ordered (size : Nat) : Scoring.Ordered ℝ size where
  zero_le_zero := zero_le_iff.2 le_rfl
  zero_lt_one := lt_iff.2 (Nat.cast_pos.2 Nat.one_pos)
  le_trans hxy hyz := le_iff.2 ((le_iff.1 hxy).trans (le_iff.1 hyz))
  lt_of_lt_of_le hxy hyz := lt_iff.2 ((lt_iff.1 hxy).trans_le (le_iff.1 hyz))
  of_pos hx := ⟨decide_eq_false (lt_iff.1 hx).not_gt, beq_eq_false_iff_ne.2 (lt_iff.1 hx).ne'⟩
  le_add_right _ hy := le_iff.2 (le_add_of_nonneg_right (zero_le_iff.1 hy))
  le_add_left hx _ := le_iff.2 (le_add_of_nonneg_left (zero_le_iff.1 hx))
  le_mul hx hy := le_iff.2 (le_mul_of_one_le_right (zero_lt_iff.1 hx).le (one_le_iff.1 hy))
  ratio {n a} _ ha := by
    refine ⟨_, rfl, zero_le_iff.2 ?_⟩
    have : (0 : ℝ) < a := Int.cast_pos.2 ha
    positivity
  lnNat hn := zero_le_iff.2 (Real.log_natCast_nonneg _)
  ln hx := zero_le_iff.2 (Real.log_nonneg (one_le_iff.1 hx))
  sqrt_nonneg _ := zero_le_iff.2 (Real.sqrt_nonneg _)
  sqrt_pos hx := zero_lt_iff.2 (Real.sqrt_pos.2 (zero_lt_iff.1 hx))
  one_le_sqrt hx := one_le_iff.2 (Real.one_le_sqrt.2 (one_le_iff.1 hx))
  square_nonneg _ := zero_le_iff.2 (sq_nonneg _)
  one_le_square hx := one_le_iff.2 (one_le_pow₀ (one_le_iff.1 hx))

/-- A term with a positive aggregate never weighs nothing in a corpus that has documents. -/
theorem corpusWeight_ne_zero {n : Nat} {a : Int} (hn : 0 < n) (ha : 0 < a) {w : ℝ}
    (h : corpusWeight (.integer n) (.integer a) = .ok w) : (w == 0) = false := by
  obtain ⟨spread, quotient, -, weight, -⟩ := (ordered n).exists_corpusWeight le_rfl ha
  rw [weight] at h
  cases h
  cases quotient
  have spread_pos : (0 : ℝ) < ((n : ℤ) : ℝ) / a := div_pos (by exact_mod_cast hn) (by exact_mod_cast ha)
  have log_pos : 0 < Real.log (((1 : ℕ) : ℝ) + ((n : ℤ) : ℝ) / a) := by
    refine Real.log_pos ?_
    rw [Nat.cast_one]
    linarith
  exact beq_eq_false_iff_ne.2 (pow_pos log_pos 2).ne'

end Exact
end Retrieval
