import Mathlib.Algebra.Order.Archimedean.Basic
import Mathlib.Algebra.Order.Field.Power
import Mathlib.Data.Rat.Cast.Order
import Mathlib.Tactic.FieldSimp
import Mathlib.Tactic.Linarith
import Mathlib.Tactic.Positivity
import Retrieval.Proofs.Numeral.Encoding

/-!
# Rounding to the nearest floating-point number

Quotients of naturals are taken as rationals, with powers of two as integer powers. The rationals that round to a
binary fraction form an interval (`Rounds`), half a step wide on both sides, and `nearestBits` is the encoding of the
fraction in whose interval a quotient lies (`nearestBits_eq`).
-/

set_option autoImplicit false

namespace Retrieval.Numeral

/-! ### Integer arithmetic as rational arithmetic -/

/-- An integer power is a quotient of two natural ones. -/
theorem zpow_eq_div (b : ℚ) (p : Int) : b ^ p = b ^ p.toNat / b ^ (-p).toNat := by
  obtain ⟨n, rfl | rfl⟩ := p.eq_nat_or_neg
  · simp
  · simp

theorem cast_fractionOf (mantissa : Nat) (exponent : Int) :
    ((fractionOf mantissa exponent).1 : ℚ) / (fractionOf mantissa exponent).2 = mantissa * 2 ^ exponent := by
  rw [fractionOf, zpow_eq_div 2 exponent]
  simp [mul_div_assoc]

theorem fractionOf_snd_pos (mantissa : Nat) (exponent : Int) : 0 < (fractionOf mantissa exponent).2 :=
  Nat.two_pow_pos _

theorem powerLe_iff {base : Nat} (hbase : 0 < base) (power : Int) (num : Nat) {den : Nat} (hden : 0 < den) :
    powerLe base power num den = true ↔ (base : ℚ) ^ power ≤ num / den := by
  have hden' : (0 : ℚ) < den := by positivity
  have low : (0 : ℚ) < (base : ℚ) ^ (-power).toNat := by positivity
  rw [powerLe, zpow_eq_div, div_le_div_iff₀ low hden', decide_eq_true_eq, ← Nat.cast_le (α := ℚ), Nat.pow_eq,
    Nat.pow_eq]
  push_cast
  rw [mul_comm (den : ℚ)]

/-- The quotient that `scaledQuotient` rounds. -/
theorem cast_scaled (base num den : Nat) (shift : Int) :
    ((num * base ^ (-shift).toNat : Nat) : ℚ) / (den * base ^ shift.toNat : Nat) = num / den / base ^ shift := by
  rw [zpow_eq_div (base : ℚ) shift]
  push_cast
  rw [div_div_eq_mul_div, div_mul_eq_mul_div, div_div]

/-! ### Quotients rounded to integers -/

/-- Whether a rational lies between two bounds; the bounds themselves count if the interval is closed. -/
structure Between (low high : ℚ) (closed : Prop) (v : ℚ) : Prop where
  low_le : low ≤ v
  le_high : v ≤ high
  inside : ¬ closed → low < v ∧ v < high

/-- Whether a rational rounds to an integer, a half going to the even one. -/
def RoundsTo (v : ℚ) (n : Nat) : Prop := Between (n - 1 / 2) (n + 1 / 2) (Even n) v

/-- A quotient that rounds to an integer, in terms of integers only. -/
structure Nearest (num den n : Nat) : Prop where
  low : (2 * n : Int) * den ≤ 2 * num + den
  high : (2 * num : Int) ≤ 2 * n * den + den
  inside : ¬ Even n → (2 * n : Int) * den < 2 * num + den ∧ (2 * num : Int) < 2 * n * den + den

theorem RoundsTo.nearest {num den n : Nat} (hden : 0 < den) (h : RoundsTo (num / den) n) : Nearest num den n := by
  have hden' : (0 : ℚ) < den := by positivity
  have hnum : (num / den : ℚ) * den = num := div_mul_cancel₀ _ hden'.ne'
  constructor
  case low =>
    have low := mul_le_mul_of_nonneg_right h.low_le hden'.le
    rw [hnum] at low
    have low : (2 * n : ℚ) * den ≤ 2 * num + den := by linarith
    exact_mod_cast low
  case high =>
    have high := mul_le_mul_of_nonneg_right h.le_high hden'.le
    rw [hnum] at high
    have high : (2 * num : ℚ) ≤ 2 * n * den + den := by linarith
    exact_mod_cast high
  case inside =>
    intro odd
    obtain ⟨low, high⟩ := h.inside odd
    have low := mul_lt_mul_of_pos_right low hden'
    have high := mul_lt_mul_of_pos_right high hden'
    rw [hnum] at low high
    have low : (2 * n : ℚ) * den < 2 * num + den := by linarith
    have high : (2 * num : ℚ) < 2 * n * den + den := by linarith
    exact ⟨by exact_mod_cast low, by exact_mod_cast high⟩

theorem roundedQuotient_eq {num den n : Nat} (hden : 0 < den) (h : RoundsTo (num / den) n) :
    roundedQuotient num den = n := by
  obtain ⟨low, high, inside⟩ := h.nearest hden
  have split : (num : Int) = den * (num / den : Nat) + (num % den : Nat) := by
    exact_mod_cast (Nat.div_add_mod num den).symm
  have rest : num % den < den := Nat.mod_lt _ hden
  rw [roundedQuotient]
  generalize num / den = q at *
  generalize num % den = r at *
  rw [split] at low high inside
  rw [Nat.even_iff] at inside
  -- the nearest integer is the quotient or its successor
  obtain below | rfl | rfl | above : n < q ∨ n = q ∨ n = q + 1 ∨ q + 2 ≤ n := by omega
  · have : (den : Int) * (n + 1) ≤ den * q := Int.mul_le_mul_of_nonneg_left (by omega) (by omega)
    nlinarith
  · have half : 2 * r ≤ den := by
      have : (2 * r : Int) ≤ den := by linarith
      omega
    have odd : n % 2 = 1 → 2 * r < den := by
      intro h
      have : (2 * r : Int) < den := by linarith [(inside (by omega)).2]
      omega
    rw [if_neg (by omega)]
  · have half : den ≤ 2 * r := by
      have : (den : Int) ≤ 2 * r := by
        push_cast at low
        linarith
      omega
    have odd : q % 2 = 0 → den < 2 * r := by
      intro h
      have : (den : Int) < 2 * r := by
        have := (inside (by omega)).1
        push_cast at this
        linarith
      omega
    rw [if_pos (by omega)]
  · have : (den : Int) * (q + 2) ≤ den * n := Int.mul_le_mul_of_nonneg_left (by omega) (by omega)
    nlinarith

/-- The quotient of a fraction by a power is rounded to the integer around which it lies. -/
theorem scaledQuotient_eq {base num den n : Nat} (hbase : 0 < base) (hden : 0 < den) {shift : Int}
    (h : RoundsTo (num / den / base ^ shift) n) : scaledQuotient base num den shift = n := by
  rw [← cast_scaled] at h
  exact roundedQuotient_eq (Nat.mul_pos hden (Nat.pow_pos hbase)) h

/-! ### The nearest binary fraction -/

/-- The quotient of the leading powers of two is off by less than one step in either direction. -/
theorem leading_powers {num den : Nat} (hnum : 0 < num) (hden : 0 < den) :
    (2 : ℚ) ^ ((num.log2 : Int) - den.log2 - 1) < num / den ∧
      (num / den : ℚ) < 2 ^ ((num.log2 : Int) - den.log2 + 1) := by
  have hden' : (0 : ℚ) < den := by positivity
  constructor
  · rw [lt_div_iff₀ hden']
    calc (2 : ℚ) ^ ((num.log2 : Int) - den.log2 - 1) * den
        < 2 ^ ((num.log2 : Int) - den.log2 - 1) * 2 ^ (den.log2 + 1) := by
          gcongr
          exact_mod_cast Nat.lt_log2_self
      _ = 2 ^ num.log2 := by
        rw [← zpow_natCast, ← zpow_natCast, ← zpow_add₀ two_ne_zero]
        congr 1
        push_cast
        ring
      _ ≤ num := by exact_mod_cast Nat.log2_self_le hnum.ne'
  · rw [div_lt_iff₀ hden']
    calc (num : ℚ) < 2 ^ (num.log2 + 1) := by exact_mod_cast Nat.lt_log2_self
      _ = 2 ^ ((num.log2 : Int) - den.log2 + 1) * 2 ^ den.log2 := by
        rw [← zpow_natCast, ← zpow_natCast, ← zpow_add₀ two_ne_zero]
        congr 1
        push_cast
        ring
      _ ≤ 2 ^ ((num.log2 : Int) - den.log2 + 1) * den := by
        gcongr
        exact_mod_cast Nat.log2_self_le hden.ne'

theorem binaryExponent_eq {num den : Nat} (hnum : 0 < num) (hden : 0 < den) {k : Int}
    (low : (2 : ℚ) ^ k ≤ num / den) (high : (num / den : ℚ) < 2 ^ (k + 1)) : binaryExponent num den = k := by
  have two : (1 : ℚ) < 2 := one_lt_two
  obtain ⟨below, above⟩ := leading_powers hnum hden
  unfold binaryExponent
  generalize (num.log2 : Int) - den.log2 = guess at *
  have h1 := (zpow_lt_zpow_iff_right₀ two).1 (low.trans_lt above)
  have h2 := (zpow_lt_zpow_iff_right₀ two).1 (below.trans high)
  have reaches := powerLe_iff two_pos guess num hden
  rw [Nat.cast_ofNat] at reaches
  by_cases reached : powerLe 2 guess num den = true
  · rw [if_pos reached]
    have := (zpow_lt_zpow_iff_right₀ two).1 ((reaches.1 reached).trans_lt high)
    omega
  · rw [if_neg reached]
    rw [reaches, not_le] at reached
    have := (zpow_lt_zpow_iff_right₀ two).1 (low.trans_lt reached)
    omega

/-- Whether a binary fraction is a power of two to which the step from below is half as wide. -/
def Narrow (mantissa : Nat) (exponent : Int) : Prop := mantissa = 2 ^ 52 ∧ -1074 < exponent

instance (mantissa : Nat) (exponent : Int) : Decidable (Narrow mantissa exponent) := inferInstanceAs (Decidable (_ ∧ _))

/-- Whether a rational rounds to a binary fraction: it lies within half a step. -/
def Rounds (mantissa : Nat) (exponent : Int) (v : ℚ) : Prop :=
  Between ((mantissa - (if Narrow mantissa exponent then 1 / 4 else 1 / 2)) * 2 ^ exponent)
    ((mantissa + 1 / 2) * 2 ^ exponent) (Even mantissa) v

section

variable {mantissa : Nat} {exponent : Int} {v : ℚ}

theorem two_zpow_add (m : Nat) (exponent : Int) : (2 : ℚ) ^ ((m : Int) + exponent) = 2 ^ m * 2 ^ exponent := by
  rw [zpow_add₀ two_ne_zero, zpow_natCast]

theorem Rounds.pos (h : Rounds mantissa exponent v) (positive : 0 < mantissa) : 0 < v := by
  have one_le : (1 : ℚ) ≤ mantissa := by exact_mod_cast positive
  refine lt_of_lt_of_le (mul_pos ?_ (zpow_pos two_pos exponent)) h.low_le
  split <;> linarith

/-- What rounds to a mantissa of fifty-three bits does not reach the next power of two. -/
theorem Rounds.lt_power (h : Rounds mantissa exponent v) (canonical : Canonical mantissa exponent) :
    v < 2 ^ (53 + exponent) := by
  have bound : (mantissa : ℚ) + 1 ≤ 2 ^ 53 := by exact_mod_cast canonical.mantissa_lt
  refine h.le_high.trans_lt ?_
  rw [show (53 : Int) = (53 : Nat) from rfl, two_zpow_add]
  exact mul_lt_mul_of_pos_right (by linarith) (zpow_pos two_pos exponent)

/-- In units of the step, what rounds to a binary fraction rounds to its mantissa. -/
theorem Rounds.roundsTo (h : Rounds mantissa exponent v) : RoundsTo (v / 2 ^ exponent) mantissa := by
  have step : (0 : ℚ) < 2 ^ exponent := zpow_pos two_pos exponent
  have wide : (mantissa - 1 / 2 : ℚ) ≤ mantissa - if Narrow mantissa exponent then 1 / 4 else 1 / 2 := by
    split <;> linarith
  refine ⟨?_, (div_le_iff₀ step).2 h.le_high, fun odd => ⟨?_, (div_lt_iff₀ step).2 (h.inside odd).2⟩⟩
  · exact wide.trans ((le_div_iff₀ step).2 h.low_le)
  · exact wide.trans_lt ((lt_div_iff₀ step).2 (h.inside odd).1)

/-- The unit in which `nearestBits` counts is the step, unless the quotient lies below a power of two. -/
theorem Rounds.unit_eq (h : Rounds mantissa exponent v) (canonical : Canonical mantissa exponent)
    (reaches : Narrow mantissa exponent → (2 : ℚ) ^ (52 + exponent) ≤ v) {k : Int} (low : (2 : ℚ) ^ k ≤ v)
    (high : v < 2 ^ (k + 1)) : max (k - 52) (-1074) = exponent := by
  have upper := (zpow_lt_zpow_iff_right₀ (one_lt_two (α := ℚ))).1 (low.trans_lt (h.lt_power canonical))
  have least := canonical.le_exponent
  rcases canonical.full with rfl | full
  · omega
  by_cases subnormal : exponent = -1074
  · omega
  have lower : (2 : ℚ) ^ (52 + exponent) ≤ v := by
    by_cases narrow : Narrow mantissa exponent
    · exact reaches narrow
    · have more : 2 ^ 52 + 1 ≤ mantissa := by
        have : mantissa ≠ 2 ^ 52 := fun e => narrow ⟨e, by omega⟩
        omega
      have more : (2 ^ 52 + 1 : ℚ) ≤ mantissa := by exact_mod_cast more
      refine le_trans ?_ h.low_le
      rw [if_neg narrow, show (52 : Int) = (52 : Nat) from rfl, two_zpow_add]
      exact mul_le_mul_of_nonneg_right (by linarith) (zpow_pos two_pos exponent).le
  have := (zpow_lt_zpow_iff_right₀ (one_lt_two (α := ℚ))).1 (lower.trans_lt high)
  omega

/-- Below a power of two the unit is half the step, and the quotient is rounded up to twice the mantissa. -/
theorem Rounds.below_power (h : Rounds mantissa exponent v) (narrow : Narrow mantissa exponent)
    (below : v < 2 ^ (52 + exponent)) {k : Int} (low : (2 : ℚ) ^ k ≤ v) (high : v < 2 ^ (k + 1)) :
    k = exponent + 51 ∧ RoundsTo (v / 2 ^ (exponent - 1)) (2 ^ 53) := by
  have step : (0 : ℚ) < 2 ^ exponent := zpow_pos two_pos exponent
  have half : (2 : ℚ) ^ (exponent - 1) = 2 ^ exponent / 2 := zpow_sub_one₀ two_ne_zero exponent
  have near : ((2 ^ 52 : ℚ) - 1 / 4) * 2 ^ exponent ≤ v := by
    have := h.low_le
    rw [if_pos narrow, narrow.1] at this
    exact_mod_cast this
  constructor
  · have upper := (zpow_lt_zpow_iff_right₀ (one_lt_two (α := ℚ))).1 (low.trans_lt below)
    have lower : (2 : ℚ) ^ (51 + exponent) < 2 ^ (k + 1) := by
      refine lt_of_le_of_lt ?_ (near.trans_lt high)
      rw [show (51 : Int) = (51 : Nat) from rfl, two_zpow_add]
      exact mul_le_mul_of_nonneg_right (by norm_num) step.le
    have lower := (zpow_lt_zpow_iff_right₀ (one_lt_two (α := ℚ))).1 lower
    omega
  · rw [show (52 : Int) = (52 : Nat) from rfl, two_zpow_add] at below
    rw [half]
    refine ⟨?_, ?_, fun odd => absurd ⟨2 ^ 52, rfl⟩ odd⟩
    · rw [le_div_iff₀ (by positivity)]
      push_cast
      linarith
    · rw [div_le_iff₀ (by positivity)]
      push_cast
      linarith

theorem Canonical.encode_lt (canonical : Canonical mantissa exponent) : encode mantissa exponent < infinityBits := by
  have bound := canonical.mantissa_lt
  have greatest := canonical.exponent_le
  show (exponent + 1074).toNat * 2 ^ 52 + mantissa < 2047 * 2 ^ 52
  omega

/-- **Rounding finds the fraction in whose interval a quotient lies.** -/
theorem nearestBits_eq {num den : Nat} (hden : 0 < den) (canonical : Canonical mantissa exponent)
    (positive : 0 < mantissa) (h : Rounds mantissa exponent (num / den)) :
    nearestBits num den = encode mantissa exponent := by
  have hv := h.pos positive
  have hnum : 0 < num := by
    apply Nat.pos_of_ne_zero
    rintro rfl
    simp at hv
  obtain ⟨k, low, high⟩ := exists_mem_Ico_zpow hv one_lt_two
  have bits (unit : Int) (n : Nat) (hunit : max (k - 52) (-1074) = unit) (hn : scaledQuotient 2 num den unit = n) :
      nearestBits num den = min infinityBits ((unit + 1074).toNat * fractionCount + n) := by
    rw [nearestBits, if_neg hnum.ne', binaryExponent_eq hnum hden low high, hunit]
    show min infinityBits (_ + scaledQuotient 2 num den unit) = _
    rw [hn]
  have finite := canonical.encode_lt
  by_cases below : Narrow mantissa exponent ∧ (num / den : ℚ) < 2 ^ (52 + exponent)
  · obtain ⟨narrow, below⟩ := below
    obtain ⟨rfl, rounds⟩ := h.below_power narrow below low high
    have unit : max (exponent + 51 - 52) (-1074) = exponent - 1 := by
      have := narrow.2
      omega
    have same : (exponent - 1 + 1074).toNat * fractionCount + 2 ^ 53 = encode mantissa exponent := by
      obtain ⟨rfl, above⟩ := narrow
      show (exponent - 1 + 1074).toNat * 2 ^ 52 + 2 ^ 53 = (exponent + 1074).toNat * 2 ^ 52 + 2 ^ 52
      omega
    rw [bits _ _ unit (scaledQuotient_eq two_pos hden (by exact_mod_cast rounds)), same]
    omega
  · have unit := h.unit_eq canonical (fun narrow => not_lt.1 fun lt => below ⟨narrow, lt⟩) low high
    rw [bits _ _ unit (scaledQuotient_eq two_pos hden (by exact_mod_cast h.roundsTo))]
    show min infinityBits (encode mantissa exponent) = _
    omega

end

end Retrieval.Numeral
