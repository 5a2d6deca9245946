/-!
# Floating-point numbers as binary fractions

A finite floating-point number stands for `mantissa · 2 ^ exponent`. `reading` takes it apart, and `nearest`
goes the other way: it is the number closest to a quotient of integers, with a half going to the even
mantissa, as exact integer arithmetic decides it.
-/

set_option autoImplicit false

namespace Retrieval.Numeral

/-- What a floating-point number stands for. -/
inductive Reading where
  | notANumber
  | infinite (negative : Bool)
  /-- The value `mantissa · 2 ^ exponent`, or its opposite. -/
  | finite (negative : Bool) (mantissa : Nat) (exponent : Int)

/-- What the sign bit stands for when the bits are read as one number. -/
def signBit : Nat := Nat.pow 2 63

/-- How many fractions there are for each exponent field. -/
def fractionCount : Nat := Nat.pow 2 52

/-- Reads the sign, the exponent field and the fraction of a number. -/
def reading (x : Float) : Reading :=
  let bits := x.toBits.toNat
  let negative := bits / signBit == 1
  let field : Nat := bits / fractionCount % 2048
  let fraction := bits % fractionCount
  if field = 2047 then (if fraction = 0 then .infinite negative else .notANumber)
  else if field = 0 then .finite negative fraction (-1074)
  else .finite negative (fractionCount + fraction) ((field : Int) - 1075)

/-- A fraction of naturals that stands for `mantissa · 2 ^ exponent`. -/
def fractionOf (mantissa : Nat) (exponent : Int) : Nat × Nat :=
  (mantissa * Nat.pow 2 exponent.toNat, Nat.pow 2 (-exponent).toNat)

/-- The integer nearest to a quotient, a half going to the even neighbour. -/
def roundedQuotient (num den : Nat) : Nat :=
  let q := num / den
  let rest := 2 * (num % den)
  if den < rest ∨ (rest = den ∧ q % 2 = 1) then q + 1 else q

/-- The quotient `num / den · base ^ (-shift)`, rounded to the nearest integer. -/
def scaledQuotient (base : Nat) (num den : Nat) (shift : Int) : Nat :=
  roundedQuotient (num * base.pow (-shift).toNat) (den * base.pow shift.toNat)

/-- Whether `base ^ power ≤ num / den`. -/
def powerLe (base : Nat) (power : Int) (num den : Nat) : Bool :=
  den * base.pow power.toNat ≤ num * base.pow (-power).toNat

/-- The greatest power of two that does not exceed a positive quotient. -/
def binaryExponent (num den : Nat) : Int :=
  let guess : Int := Nat.log2 num - Nat.log2 den
  if powerLe 2 guess num den then guess else guess - 1

/-- The bits of infinity. -/
def infinityBits : Nat := 2047 * fractionCount

/-- The bits of the number nearest to a quotient, those of infinity when it is out of range. -/
def nearestBits (num den : Nat) : Nat :=
  if num = 0 then 0
  else
    let unit := max (binaryExponent num den - 52) (-1074)
    min infinityBits ((unit + 1074).toNat * fractionCount + scaledQuotient 2 num den unit)

/-- The number with the given bits after its sign. -/
def ofSignAndBits (negative : Bool) (bits : Nat) : Float :=
  Float.ofBits (UInt64.ofNat ((if negative then signBit else 0) + bits))

/-- Infinity with a sign. -/
def infinity (negative : Bool) : Float := ofSignAndBits negative infinityBits

/-- The floating-point number nearest to a quotient, or infinity when the quotient is out of range. -/
def nearest (negative : Bool) (num den : Nat) : Float := ofSignAndBits negative (nearestBits num den)

/-- The floating-point number nearest to an integer. -/
def nearestInt (n : Int) : Float := nearest (n < 0) n.natAbs 1

/-- The floating-point number nearest to the quotient of two integers, the second not zero. -/
def nearestRatio (num den : Int) : Float :=
  nearest (decide (num < 0) != decide (den < 0)) num.natAbs den.natAbs

/-- The floating-point number nearest to `digits · 10 ^ exponent`. Powers far out of range are not formed. -/
def nearestDecimal (negative : Bool) (digits : Nat) (exponent : Int) : Float :=
  if digits = 0 ∨ exponent + Nat.log2 digits / 3 < -400 then nearest negative 0 1
  else if 400 < exponent then infinity negative
  else nearest negative (digits * Nat.pow 10 exponent.toNat) (Nat.pow 10 (-exponent).toNat)

end Retrieval.Numeral
