import Retrieval.Proofs.Numeral.Digits
import Retrieval.Proofs.Numeral.Rounding

/-!
# Decimals that read back

A decimal stands for a rational (`Decimal.value`). `readsBack` decides whether that rational rounds to a binary
fraction, and reading a decimal that does gives the fraction (`nearestDecimal_eq`), whichever digits it is written
with. The decimal that `shortest` finds is such a one.
-/

set_option autoImplicit false

namespace Retrieval.Numeral

/-- What a decimal stands for. -/
def Decimal.value (d : Decimal) : ℚ := d.digits * 10 ^ d.exponent

theorem cross_le (a num d power : Nat) {den scale : Nat} (hden : 0 < den) (hscale : 0 < scale) :
    a * num * scale ≤ d * power * den ↔ (a * (num / den) : ℚ) ≤ d * (power / scale) := by
  rw [mul_div_assoc', mul_div_assoc', div_le_div_iff₀ (by exact_mod_cast hden) (by exact_mod_cast hscale)]
  exact_mod_cast Iff.rfl

theorem between_iff (low high : ℚ) (n : Nat) (v : ℚ) :
    Between low high (Even n) v ↔ if n % 2 = 0 then low ≤ v ∧ v ≤ high else low < v ∧ v < high := by
  by_cases even : n % 2 = 0
  · rw [if_pos even]
    exact ⟨fun h => ⟨h.low_le, h.le_high⟩, fun h => ⟨h.1, h.2, fun odd => absurd (Nat.even_iff.2 even) odd⟩⟩
  · rw [if_neg even]
    exact ⟨fun h => h.inside (mt Nat.even_iff.1 even), fun h => ⟨h.1.le, h.2.le, fun _ => h⟩⟩

/-- A decimal is checked against the interval of a binary fraction in whole numbers of quarters of the step. -/
theorem Decimal.readsBack_iff (d : Decimal) {mantissa : Nat} (positive : 0 < mantissa) (exponent : Int) :
    d.readsBack mantissa exponent = true ↔ Rounds mantissa exponent d.value := by
  have quarter := cast_fractionOf 1 (exponent - 2)
  have den_pos := fractionOf_snd_pos 1 (exponent - 2)
  have scale_pos : 0 < 10 ^ (-d.exponent).toNat := Nat.pow_pos (by decide)
  have power : d.value = d.digits * ((10 ^ d.exponent.toNat : Nat) / (10 ^ (-d.exponent).toNat : Nat)) := by
    rw [value, zpow_eq_div]
    push_cast
    rfl
  rw [Nat.cast_one, one_mul, zpow_sub₀ two_ne_zero] at quarter
  have low : ((mantissa - if Narrow mantissa exponent then 1 / 4 else 1 / 2 : ℚ) * 2 ^ exponent) =
      (4 * mantissa - (if Narrow mantissa exponent then 1 else 2) : Nat) *
        ((fractionOf 1 (exponent - 2)).1 / (fractionOf 1 (exponent - 2)).2) := by
    rw [quarter, Nat.cast_sub (by split <;> omega)]
    push_cast
    split <;> ring
  have high : ((mantissa + 1 / 2 : ℚ) * 2 ^ exponent) = (4 * mantissa + 2 : Nat) *
      ((fractionOf 1 (exponent - 2)).1 / (fractionOf 1 (exponent - 2)).2) := by
    rw [quarter]
    push_cast
    ring
  rw [Rounds, between_iff, low, high, power, ← not_le, ← not_le]
  rw [← cross_le _ _ _ _ den_pos scale_pos, ← cross_le _ _ _ _ scale_pos den_pos,
    ← cross_le _ _ _ _ den_pos scale_pos, ← cross_le _ _ _ _ scale_pos den_pos]
  show (if mantissa % 2 = 0 then _ else _) = true ↔ _
  split
  · simp only [Bool.and_eq_true, decide_eq_true_eq]
    exact Iff.rfl
  · simp only [Bool.and_eq_true, decide_eq_true_eq, not_le]
    exact Iff.rfl

theorem trailing_zeros_dvd (n : Nat) : 10 ^ ((digitsOf n).reverse.takeWhile (· == '0')).length ∣ n := by
  have zeros : (digitsOf n).reverse.takeWhile (· == '0') =
      List.replicate ((digitsOf n).reverse.takeWhile (· == '0')).length '0' := by
    apply List.eq_replicate_of_mem
    intro c hc
    simpa using List.mem_takeWhile_imp hc
  have split := congrArg List.reverse (List.takeWhile_append_dropWhile (p := (· == '0')) (l := (digitsOf n).reverse))
  rw [List.reverse_append, List.reverse_reverse, zeros, List.reverse_replicate] at split
  have value := Nat.ofDigitChars_ten_toDigits (n := n)
  rw [show Nat.toDigits 10 n = digitsOf n from rfl, ← split, Nat.ofDigitChars_append,
    Nat.ofDigitChars_replicate_zero] at value
  exact ⟨_, value.symm⟩

theorem Decimal.value_stripped (d : Decimal) : d.stripped.value = d.value := by
  obtain ⟨front, split⟩ := trailing_zeros_dvd d.digits
  unfold stripped value
  dsimp only
  generalize ((digitsOf d.digits).reverse.takeWhile (· == '0')).length = zeros at *
  have cut : d.digits / Nat.pow 10 zeros = front := by
    rw [split]
    exact Nat.mul_div_cancel_left front (Nat.pow_pos (by decide))
  rw [cut, split, zpow_add₀ (by norm_num), zpow_natCast]
  push_cast
  ring

/-- A binary fraction rounds to itself. -/
theorem rounds_self (mantissa : Nat) (exponent : Int) : Rounds mantissa exponent (mantissa * 2 ^ exponent) := by
  have step : (0 : ℚ) < 2 ^ exponent := zpow_pos two_pos exponent
  have low : (mantissa - (if Narrow mantissa exponent then 1 / 4 else 1 / 2) : ℚ) < mantissa := by
    split <;> linarith
  have low := mul_lt_mul_of_pos_right low step
  have high : (mantissa * 2 ^ exponent : ℚ) < (mantissa + 1 / 2) * 2 ^ exponent :=
    mul_lt_mul_of_pos_right (by linarith) step
  exact ⟨low.le, high.le, fun _ => ⟨low, high⟩⟩

/-- With enough places a binary fraction is a decimal. -/
theorem value_exact (mantissa : Nat) {exponent power : Int} {places : Nat} (hpower : power = -places)
    (h : power ≤ exponent) :
    (Decimal.mk (roundedQuotient ((fractionOf mantissa exponent).1 * Nat.pow 10 places)
      (fractionOf mantissa exponent).2) power).value = mantissa * 2 ^ exponent := by
  subst hpower
  have whole : (2 : ℚ) ^ exponent * 10 ^ places = (2 ^ (exponent + places).toNat * 5 ^ places : Nat) := by
    have power : (2 : ℚ) ^ (exponent + places).toNat = 2 ^ exponent * 2 ^ places := by
      rw [← zpow_natCast, Int.toNat_of_nonneg (by omega), zpow_add₀ two_ne_zero, zpow_natCast]
    push_cast
    rw [power, mul_assoc, ← mul_pow]
    norm_num
  have rounded : roundedQuotient ((fractionOf mantissa exponent).1 * 10 ^ places) (fractionOf mantissa exponent).2 =
      mantissa * (2 ^ (exponent + places).toNat * 5 ^ places) := by
    apply roundedQuotient_eq (fractionOf_snd_pos _ _)
    have value : (((fractionOf mantissa exponent).1 * 10 ^ places : Nat) : ℚ) / (fractionOf mantissa exponent).2 =
        (mantissa * (2 ^ (exponent + places).toNat * 5 ^ places) : Nat) := by
      rw [Nat.cast_mul, mul_div_right_comm, cast_fractionOf, Nat.cast_mul mantissa, ← whole]
      push_cast
      ring
    rw [value]
    exact ⟨by linarith, by linarith, fun _ => ⟨by linarith, by linarith⟩⟩
  rw [Decimal.value, Nat.pow_eq, rounded, Nat.cast_mul, ← whole, zpow_neg, zpow_natCast]
  field_simp

theorem rounds_shortest {mantissa : Nat} {exponent : Int} (canonical : Canonical mantissa exponent)
    (positive : 0 < mantissa) : Rounds mantissa exponent (shortest mantissa exponent).value := by
  unfold shortest
  dsimp only
  split
  · rename_i d found
    rw [Decimal.value_stripped, ← Decimal.readsBack_iff d positive]
    exact List.find?_some (p := fun d : Decimal => d.readsBack mantissa exponent) found
  · have least : (-1074 : Int) = -((1074 : Nat) : Int) := by decide
    generalize (1074 : Nat) = places at *
    rw [value_exact mantissa least canonical.le_exponent]
    exact rounds_self mantissa exponent

/-! ### Reading decimals -/

/-- A decimal with digits lies below the power of ten that their number gives. -/
theorem lt_power_of_log (digits : Nat) (power : Int) :
    (digits * 10 ^ power : ℚ) < 10 ^ (power + (digits.log2 / 3 : Nat) + 1) := by
  have bits : digits < 10 ^ (digits.log2 / 3 + 1) := by
    calc digits < 2 ^ (digits.log2 + 1) := Nat.lt_log2_self
      _ ≤ 2 ^ (3 * (digits.log2 / 3 + 1)) := Nat.pow_le_pow_right (by decide) (by omega)
      _ = 8 ^ (digits.log2 / 3 + 1) := by rw [Nat.pow_mul]
      _ ≤ 10 ^ (digits.log2 / 3 + 1) := Nat.pow_le_pow_left (by decide) _
  have bits : (digits : ℚ) < 10 ^ (digits.log2 / 3 + 1) := by exact_mod_cast bits
  have ten : (0 : ℚ) < 10 ^ power := zpow_pos (by norm_num) power
  calc (digits * 10 ^ power : ℚ) < 10 ^ (digits.log2 / 3 + 1) * 10 ^ power := mul_lt_mul_of_pos_right bits ten
    _ = 10 ^ (power + (digits.log2 / 3 : Nat) + 1) := by
      rw [← zpow_natCast, ← zpow_add₀ (by norm_num)]
      congr 1
      push_cast
      ring

theorem eight_zpow (n : Int) : (8 : ℚ) ^ n = 2 ^ (3 * n) := by
  rw [zpow_mul]
  norm_num

/-- What rounds to a positive fraction is not far out of range. -/
theorem Rounds.range {mantissa : Nat} {exponent : Int} {v : ℚ} (h : Rounds mantissa exponent v)
    (canonical : Canonical mantissa exponent) (positive : 0 < mantissa) :
    (10 : ℚ) ^ (-400 : Int) < v ∧ v < 10 ^ (400 : Int) := by
  have least := canonical.le_exponent
  have greatest := canonical.exponent_le
  have large : (2 : ℚ) ^ (1200 : Int) < 10 ^ (400 : Int) := by
    rw [show (1200 : Int) = 3 * 400 from rfl, ← eight_zpow]
    exact zpow_lt_zpow_left₀ (by norm_num) (by norm_num) (by norm_num)
  constructor
  · have small : (10 : ℚ) ^ (-400 : Int) < 2 ^ (-1200 : Int) := by
      rw [zpow_neg, zpow_neg]
      exact inv_strictAnti₀ (zpow_pos two_pos _) large
    have half : (2 : ℚ) ^ (exponent - 1) ≤ v := by
      have one_le : (1 : ℚ) ≤ mantissa := by exact_mod_cast positive
      refine le_trans ?_ h.low_le
      rw [zpow_sub_one₀ two_ne_zero, mul_comm]
      refine mul_le_mul_of_nonneg_right ?_ (zpow_pos two_pos exponent).le
      split <;> linarith
    exact (small.trans_le (zpow_le_zpow_right₀ one_le_two (by omega))).trans_le half
  · exact ((h.lt_power canonical).trans_le (zpow_le_zpow_right₀ one_le_two (by omega))).trans large

/-- **A decimal that rounds to a binary fraction is read as it.** -/
theorem nearestDecimal_eq {mantissa : Nat} {exponent : Int} (canonical : Canonical mantissa exponent)
    (positive : 0 < mantissa) {digits : Nat} {power : Int} (h : Rounds mantissa exponent (digits * 10 ^ power))
    (negative : Bool) :
    nearestDecimal negative digits power = ofSignAndBits negative (encode mantissa exponent) := by
  have some_digit : digits ≠ 0 := by
    rintro rfl
    have := h.pos positive
    simp at this
  have ten : (1 : ℚ) < 10 := by norm_num
  obtain ⟨above, below⟩ := h.range canonical positive
  have not_small : ¬ power + (digits.log2 : Int) / 3 < -400 := by
    have := (zpow_lt_zpow_iff_right₀ ten).1 (above.trans (lt_power_of_log digits power))
    omega
  have not_large : ¬ 400 < power := by
    have one_le : (1 : ℚ) ≤ digits := by exact_mod_cast Nat.pos_of_ne_zero some_digit
    have := (le_mul_of_one_le_left (zpow_pos (by norm_num) power).le one_le).trans_lt below
    have := (zpow_lt_zpow_iff_right₀ ten).1 this
    omega
  unfold nearestDecimal nearest
  rw [if_neg (not_or.2 ⟨some_digit, not_small⟩), if_neg not_large]
  have den_pos : 0 < Nat.pow 10 (-power).toNat := Nat.pow_pos (by decide)
  rw [nearestBits_eq den_pos canonical positive]
  rw [zpow_eq_div, mul_div_assoc'] at h
  rw [Nat.pow_eq, Nat.pow_eq]
  exact_mod_cast h

end Retrieval.Numeral
