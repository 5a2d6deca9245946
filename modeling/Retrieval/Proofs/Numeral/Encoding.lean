import Mathlib
import Retrieval.Numeral.Binary

/-!
# Floating-point numbers and their bits

A floating-point number is its bits, and `reading` takes them apart without loss: a finite number is the one whose bits
are those of its mantissa and exponent (`eq_of_reading_finite`), there is one infinity of each sign, and one value that
is not a number.
-/

set_option autoImplicit false

namespace Retrieval.Numeral
open Float.Model UnpackedFloat

/-! ### The fields of a number -/

theorem toNat_unpackExponent (b : BitVec Format.binary64.numBits) :
    (unpackExponent b).toNat = b.toNat / 2 ^ 52 % 2 ^ 11 := by
  rw [unpackExponent_def, BitVec.extractLsb'_toNat, Nat.shiftRight_eq_div_pow]

theorem toNat_unpackMantissa (b : BitVec Format.binary64.numBits) : (unpackMantissa b).toNat = b.toNat % 2 ^ 52 := by
  rw [unpackMantissa_def, BitVec.extractLsb'_toNat, Nat.shiftRight_zero]

theorem toNat_unpackSign (b : BitVec Format.binary64.numBits) : (unpackSign b).toNat = b.toNat / 2 ^ 63 % 2 := by
  rw [unpackSign_def, BitVec.extractLsb'_toNat, Nat.shiftRight_eq_div_pow]
  rfl

theorem toNat_implicit (m : BitVec Format.binary64.mantissaBitsWithoutImplicit) :
    (1#1 ++ m).toNat = 2 ^ 52 + m.toNat := by
  have small : m.toNat < 2 ^ 52 := m.isLt
  rw [BitVec.toNat_append, Nat.shiftLeft_eq, Nat.mul_comm, ← Nat.two_pow_add_eq_or_of_lt small]
  rfl

/-! ### Readings -/

/-- The mantissas and exponents of finite numbers: the exponent is the least one or the mantissa has all its bits. -/
structure Canonical (mantissa : Nat) (exponent : Int) : Prop where
  mantissa_lt : mantissa < 2 ^ 53
  le_exponent : -1074 ≤ exponent
  exponent_le : exponent ≤ 971
  full : exponent = -1074 ∨ 2 ^ 52 ≤ mantissa

/-- The bits of a finite number after its sign. -/
def encode (mantissa : Nat) (exponent : Int) : Nat := (exponent + 1074).toNat * fractionCount + mantissa

theorem ofSignAndBits_of_toBits {x : Float} {negative : Bool} {bits : Nat}
    (h : x.toBits.toNat = (if negative then signBit else 0) + bits) : ofSignAndBits negative bits = x := by
  rw [ofSignAndBits, ← h, UInt64.ofNat_toNat, Float.ofBits_toBits]

/-- The bits of a number are its sign, its exponent field and its fraction, and `reading` tells them apart. -/
theorem reading_fields (x : Float) : ∃ (negative : Bool) (field fraction : Nat),
    field < 2048 ∧ fraction < 2 ^ 52 ∧
    x.toBits.toNat = (if negative then signBit else 0) + (field * fractionCount + fraction) ∧
    reading x =
      if field = 2047 then (if fraction = 0 then .infinite negative else .notANumber)
      else if field = 0 then .finite negative fraction (-1074)
      else .finite negative (fractionCount + fraction) ((field : Int) - 1075) := by
  have bound : x.toBits.toNat < 2 ^ 64 := x.toBits.toNat_lt
  refine ⟨x.toBits.toNat / signBit == 1, x.toBits.toNat / fractionCount % 2048, x.toBits.toNat % fractionCount,
    Nat.mod_lt _ (by decide), Nat.mod_lt _ (by decide), ?_, rfl⟩
  simp only [signBit, fractionCount, beq_iff_eq, Nat.reducePow, Nat.pow_eq]
  split <;> omega

/-- A finite number is the one with the bits of its mantissa and exponent. -/
theorem eq_of_reading_finite {x : Float} {negative : Bool} {mantissa : Nat} {exponent : Int}
    (h : reading x = .finite negative mantissa exponent) :
    Canonical mantissa exponent ∧ x = ofSignAndBits negative (encode mantissa exponent) := by
  obtain ⟨sign, field, fraction, hfield, hfraction, bits, hx⟩ := reading_fields x
  have count : fractionCount = 2 ^ 52 := rfl
  rw [h] at hx
  split at hx
  · split at hx <;> cases hx
  · split at hx
    · rename_i first
      cases hx
      refine ⟨⟨by omega, by omega, by omega, .inl rfl⟩, (ofSignAndBits_of_toBits ?_).symm⟩
      rw [bits, encode, first]
      rfl
    · rename_i last first
      cases hx
      refine ⟨⟨by omega, by omega, by omega, .inr (by omega)⟩, (ofSignAndBits_of_toBits ?_).symm⟩
      obtain ⟨f, rfl⟩ : ∃ f, field = f + 1 := ⟨field - 1, by omega⟩
      have power : (((f + 1 : Nat) : Int) - 1075 + 1074).toNat = f := by omega
      rw [bits, encode, power]
      ring

/-- There is one infinity of each sign. -/
theorem eq_of_reading_infinite {x : Float} {negative : Bool} (h : reading x = .infinite negative) :
    x = infinity negative := by
  obtain ⟨sign, field, fraction, -, -, bits, hx⟩ := reading_fields x
  rw [h] at hx
  split at hx
  · split at hx
    · rename_i last none
      cases hx
      refine (ofSignAndBits_of_toBits ?_).symm
      rw [bits, last, none]
      rfl
    · cases hx
  · split at hx <;> cases hx

/-- There is one value that is not a number. -/
theorem eq_of_reading_notANumber {x : Float} (h : reading x = .notANumber) : x = 0 / 0 := by
  obtain ⟨sign, field, fraction, -, hfraction, bits, hx⟩ := reading_fields x
  rw [h] at hx
  split at hx
  · split at hx
    · cases hx
    · rename_i last some_fraction
      have bits : x.toBits.toBitVec.toNat = (if sign then 2 ^ 63 else 0) + (2047 * 2 ^ 52 + fraction) := last ▸ bits
      have exponent : @unpackExponent Format.binary64 x.toBits.toBitVec = -1#_ := by
        apply BitVec.eq_of_toNat_eq
        rw [toNat_unpackExponent, bits]
        show _ = 2047
        split <;> omega
      have mantissa : @unpackMantissa Format.binary64 x.toBits.toBitVec ≠ 0#_ := by
        intro none
        have none : (@unpackMantissa Format.binary64 x.toBits.toBitVec).toNat = 0 := congrArg BitVec.toNat none
        rw [toNat_unpackMantissa, bits] at none
        split at none <;> omega
      have unpacked : UnpackedFloat.unpack Format.binary64 x.toBits.toBitVec = .notANumber := by
        unfold UnpackedFloat.unpack
        rw [if_pos exponent, if_neg mantissa]
      rw [← Float.ofBits_toBits x]
      unfold Float.ofBits Float.Model.ofBits
      rw [unpacked]
      decide
  · split at hx <;> cases hx

end Retrieval.Numeral
