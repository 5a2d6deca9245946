import Mathlib
import Retrieval.Proofs.Arithmetic
import Retrieval.Proofs.Comparison
import Retrieval.Proofs.Numeral.Rounding
import Retrieval.Scalar

/-!
# Rounding keeps the order

The bits of floating-point numbers that are not negative, read as one number, are ordered as these numbers are
(`placeOfBits_mono`): the exponent field stands before the fraction. Of two quotients with the same divisor, the greater
one has bits that are at least as great (`nearestBits_mono`). If both are rounded in the same unit, their mantissas are
so ordered; in a greater unit the mantissa has its full length, and the exponent field makes up for the rest. So
floating-point numbers share with exact ones what comparing shares of counts depends on (`consistent_float`).
-/

set_option autoImplicit false

namespace Retrieval

/-- Numbers that are compared consistently, and whose shares of counts are ordered as the counts are. -/
structure Scalar.Consistent (α : Type) [Scalar α] : Prop where
  lt_of_lt_of_le {x y z : α} : Scalar.lt x y = true → Scalar.Le y z → Scalar.lt x z = true
  lt_of_le_of_lt {x y z : α} : Scalar.Le x y → Scalar.lt y z = true → Scalar.lt x z = true
  share_zero (part : Nat) : (Scalar.share part 0 : α) = 0
  share_mono {part part' : Nat} (whole : Nat) : part ≤ part' →
    Scalar.Le (Scalar.share part whole : α) (Scalar.share part' whole)

namespace Numeral
open Float.Model UnpackedFloat

/-! ### Rounding -/

theorem roundedQuotient_mono {num num' den : Nat} (h : num ≤ num') :
    roundedQuotient num den ≤ roundedQuotient num' den := by
  have quotients : num / den ≤ num' / den := Nat.div_le_div_right h
  have split := Nat.div_add_mod num den
  have split' := Nat.div_add_mod num' den
  rw [roundedQuotient, roundedQuotient]
  generalize num / den = q at *
  generalize num' / den = q' at *
  generalize num % den = r at *
  generalize num' % den = r' at *
  rcases Nat.eq_or_lt_of_le quotients with rfl | lt
  · -- the rests are ordered as the numbers are
    have rests : r ≤ r' := by omega
    split <;> split <;> omega
  · -- even rounded up, the smaller one does not pass the whole part of the other
    split <;> split <;> omega

theorem roundedQuotient_mul (n : Nat) {den : Nat} (hden : 0 < den) : roundedQuotient (n * den) den = n := by
  rw [roundedQuotient, Nat.mul_div_cancel n hden, Nat.mul_mod_left, if_neg (by omega)]

section

variable {base num num' den : Nat} {shift : Int}

theorem scaledQuotient_mono (h : num ≤ num') :
    scaledQuotient base num den shift ≤ scaledQuotient base num' den shift :=
  roundedQuotient_mono (Nat.mul_le_mul_right _ h)

variable (hbase : 0 < base) (hden : 0 < den)
include hbase hden

/-- A quotient that does not exceed an integer number of units is not rounded beyond it. -/
theorem scaledQuotient_le {n : Nat} (h : (num / den : ℚ) ≤ n * (base : ℚ) ^ shift) :
    scaledQuotient base num den shift ≤ n := by
  have den_pos : 0 < den * base ^ shift.toNat := Nat.mul_pos hden (Nat.pow_pos hbase)
  have base_pos : (0 : ℚ) < (base : ℚ) ^ shift := zpow_pos (by exact_mod_cast hbase) _
  rw [← div_le_iff₀ base_pos, ← cast_scaled, div_le_iff₀ (by exact_mod_cast den_pos)] at h
  have le : num * base ^ (-shift).toNat ≤ n * (den * base ^ shift.toNat) := by exact_mod_cast h
  exact (roundedQuotient_mono le).trans (roundedQuotient_mul n den_pos).le

theorem le_scaledQuotient {n : Nat} (h : n * (base : ℚ) ^ shift ≤ num / den) :
    n ≤ scaledQuotient base num den shift := by
  have den_pos : 0 < den * base ^ shift.toNat := Nat.mul_pos hden (Nat.pow_pos hbase)
  have base_pos : (0 : ℚ) < (base : ℚ) ^ shift := zpow_pos (by exact_mod_cast hbase) _
  rw [← le_div_iff₀ base_pos, ← cast_scaled, le_div_iff₀ (by exact_mod_cast den_pos)] at h
  have le : n * (den * base ^ shift.toNat) ≤ num * base ^ (-shift).toNat := by exact_mod_cast h
  exact (roundedQuotient_mul n den_pos).ge.trans (roundedQuotient_mono le)

end

/-- A greater quotient has bits that are at least as great. -/
theorem nearestBits_mono {num num' den : Nat} (hden : 0 < den) (h : num ≤ num') :
    nearestBits num den ≤ nearestBits num' den := by
  rcases Nat.eq_zero_or_pos num with rfl | pos
  · exact Nat.zero_le _
  have pos' : 0 < num' := by omega
  have den_pos : (0 : ℚ) < den := by exact_mod_cast hden
  have quotients : (num / den : ℚ) ≤ num' / den :=
    div_le_div_of_nonneg_right (by exact_mod_cast h) den_pos.le
  have one_lt : (1 : ℚ) < 2 := one_lt_two
  obtain ⟨k, low, high⟩ := exists_mem_Ico_zpow (show (0 : ℚ) < num / den by positivity) one_lt
  obtain ⟨k', low', high'⟩ := exists_mem_Ico_zpow (show (0 : ℚ) < num' / den by positivity) one_lt
  have ordered := (zpow_lt_zpow_iff_right₀ one_lt).1 (low.trans_lt (quotients.trans_lt high'))
  rw [nearestBits, if_neg pos.ne', nearestBits, if_neg pos'.ne', binaryExponent_eq pos hden low high,
    binaryExponent_eq pos' hden low' high']
  dsimp only
  apply min_le_min_left
  rcases eq_or_ne (max (k - 52) (-1074)) (max (k' - 52) (-1074)) with same | differ
  · rw [same]
    exact Nat.add_le_add_left (scaledQuotient_mono h) _
  · -- the first mantissa is at most twice the least one of full length, and the second at least that
    have upper : scaledQuotient 2 num den (max (k - 52) (-1074)) ≤ 2 ^ 53 := by
      apply scaledQuotient_le two_pos hden
      refine high.le.trans ?_
      rw [Nat.cast_pow, Nat.cast_ofNat, ← zpow_natCast, ← zpow_add₀ two_ne_zero]
      exact zpow_le_zpow_right₀ one_lt.le (by omega)
    have lower : 2 ^ 52 ≤ scaledQuotient 2 num' den (max (k' - 52) (-1074)) := by
      apply le_scaledQuotient two_pos hden
      refine le_trans ?_ low'
      rw [Nat.cast_pow, Nat.cast_ofNat, ← zpow_natCast, ← zpow_add₀ two_ne_zero]
      exact zpow_le_zpow_right₀ one_lt.le (by omega)
    have count : fractionCount = 2 ^ 52 := rfl
    rw [count]
    omega

/-! ### Numbers that are not negative -/

/-- The place of a number that is not negative, by its bits. -/
def placeOfBits (bits : Nat) : ℤ ×ₗ ℤ ×ₗ ℤ :=
  if bits = infinityBits then toLex (2, toLex (0, 0))
  else if bits = 0 then toLex (0, toLex (0, 0))
  else if bits < fractionCount then toLex (1, toLex (-1074, (bits : ℤ)))
  else toLex (1, toLex ((bits / fractionCount : ℕ) - 1075, (fractionCount + bits % fractionCount : ℕ)))

/-- Greater bits have a later place. -/
theorem placeOfBits_mono {m n : Nat} (le : m ≤ n) (bound : n ≤ infinityBits) : placeOfBits m ≤ placeOfBits n := by
  have last : infinityBits = 2047 * 2 ^ 52 := rfl
  have count : fractionCount = 2 ^ 52 := rfl
  rw [last] at bound
  unfold placeOfBits
  rw [last, count]
  split_ifs <;> simp only [Prod.Lex.toLex_le_toLex, true_and] <;> omega

section

variable {b : BitVec Format.binary64.numBits} (h : b.toNat ≤ infinityBits)
include h

theorem sign_of_le : Sign.ofBitVec (unpackSign b) = .positive := by
  have bound : b.toNat ≤ 2047 * 2 ^ 52 := h
  apply if_pos
  apply BitVec.eq_of_toNat_eq
  rw [toNat_unpackSign]
  show _ = 0
  omega

/-- Bits up to those of infinity are those of a number, and its place is theirs. -/
theorem unpack_of_le : UnpackedFloat.unpack Format.binary64 b ≠ .notANumber ∧
    place (UnpackedFloat.unpack Format.binary64 b) = placeOfBits b.toNat := by
  have bound : b.toNat ≤ 2047 * 2 ^ 52 := h
  have last : infinityBits = 2047 * 2 ^ 52 := rfl
  have count : fractionCount = 2 ^ 52 := rfl
  have field := toNat_unpackExponent b
  have fraction := toNat_unpackMantissa b
  have bias : ((Format.binary64.exponentBias : ℕ) : ℤ) = 1023 := rfl
  have infinite : unpackExponent b = -1#_ ↔ b.toNat = 2047 * 2 ^ 52 := by
    rw [← BitVec.toNat_inj, field]
    show _ = 2047 ↔ _
    omega
  have first : unpackExponent b = 0#_ ↔ b.toNat < 2 ^ 52 := by
    rw [← BitVec.toNat_inj, field]
    show _ = 0 ↔ _
    omega
  have none : unpackMantissa b = 0#_ ↔ b.toNat % 2 ^ 52 = 0 := by
    rw [← BitVec.toNat_inj, fraction]
    rfl
  simp only [UnpackedFloat.unpack, sign_of_le h, placeOfBits, last, count, infinite, first, none]
  -- infinity, zero, numbers without an exponent field and numbers with one
  split_ifs <;> try omega
  · exact ⟨UnpackedFloat.noConfusion, rfl⟩
  · exact ⟨UnpackedFloat.noConfusion, rfl⟩
  · refine ⟨UnpackedFloat.noConfusion, ?_⟩
    rw [place, field, fraction, bias]
    congr
    all_goals omega
  · refine ⟨UnpackedFloat.noConfusion, ?_⟩
    rw [place, toNat_implicit, field, fraction, bias]
    congr
    omega

theorem valid_of_le : Format.binary64.Valid b := by
  refine ⟨fun last some_fraction => absurd ?_ (unpack_of_le h).1⟩
  unfold UnpackedFloat.unpack
  rw [if_pos last, if_neg some_fraction]

end

/-- A number that is given by bits up to those of infinity has the place of these bits. -/
theorem place_of_bits {bits : Nat} (h : bits ≤ infinityBits) :
    placed (ofSignAndBits false bits) = true ∧ place (ofSignAndBits false bits).toModel.unpack = placeOfBits bits := by
  have small : bits < 2 ^ 64 := lt_of_le_of_lt h (by decide)
  have stored : (UInt64.ofNat (0 + bits)).toBitVec.toNat = bits := by
    rw [Nat.zero_add]
    exact Nat.mod_eq_of_lt small
  have le : (UInt64.ofNat (0 + bits)).toBitVec.toNat ≤ infinityBits := stored.trans_le h
  have same : (ofSignAndBits false bits).toModel.unpack =
      UnpackedFloat.unpack Format.binary64 (UInt64.ofNat (0 + bits)).toBitVec :=
    congrArg (UnpackedFloat.unpack Format.binary64) (pack_unpack_of_valid (valid_of_le le))
  rw [placed_iff, same]
  obtain ⟨number, its_place⟩ := unpack_of_le le
  exact ⟨number, its_place.trans (congrArg placeOfBits stored)⟩

theorem le_iff {x y : Float} : Scalar.Le x y ↔
    (placed x = true ∧ placed y = true) ∧ place x.toModel.unpack ≤ place y.toModel.unpack := by
  rw [Scalar.Le, lt_iff, beq_iff, and_comm (a := placed y = true), ← and_or_left, le_iff_lt_or_eq,
    eq_comm (a := place y.toModel.unpack)]

theorem nearestBits_le (num den : Nat) : nearestBits num den ≤ infinityBits := by
  rw [nearestBits]
  split
  · exact Nat.zero_le _
  · exact Nat.min_le_left _ _

theorem share_of_pos (part : Nat) {whole : Nat} (pos : 0 < whole) :
    (Scalar.share part whole : Float) = ofSignAndBits false (nearestBits part whole) :=
  if_neg pos.ne'

end Numeral

/-- Floating-point numbers are consistent, infinities and the value that is not a number included. -/
theorem consistent_float : Scalar.Consistent Float where
  lt_of_lt_of_le hxy hyz := by
    rw [Numeral.lt_iff] at hxy ⊢
    rw [Numeral.le_iff] at hyz
    exact ⟨⟨hxy.1.1, hyz.1.2⟩, hxy.2.trans_le hyz.2⟩
  lt_of_le_of_lt hxy hyz := by
    rw [Numeral.lt_iff] at hyz ⊢
    rw [Numeral.le_iff] at hxy
    exact ⟨⟨hxy.1.1, hyz.1.2⟩, hxy.2.trans_lt hyz.2⟩
  share_zero _ := rfl
  share_mono whole le := by
    rw [Numeral.le_iff]
    rcases Nat.eq_zero_or_pos whole with rfl | pos
    · have zero : placed (0.0 : Float) = true := by decide
      exact ⟨⟨zero, zero⟩, le_rfl⟩
    · obtain ⟨number, at_bits⟩ := Numeral.place_of_bits (Numeral.nearestBits_le _ whole)
      obtain ⟨number', at_bits'⟩ := Numeral.place_of_bits (Numeral.nearestBits_le _ whole)
      rw [Numeral.share_of_pos _ pos, Numeral.share_of_pos _ pos, at_bits, at_bits']
      exact ⟨⟨number, number'⟩, Numeral.placeOfBits_mono (Numeral.nearestBits_mono pos le) (Numeral.nearestBits_le _ _)⟩

end Retrieval
