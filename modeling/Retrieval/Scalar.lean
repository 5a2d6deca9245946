import Retrieval.Numeral.Binary

/-!
# Arithmetic of scores and qualities

Weights, scores and quality measures are computed with the numbers of a `Scalar` type, in the order in which
the definitions of this library write the operations. The programs run with floating-point numbers; what is
proved of every scalar type holds for them whatever their rounding. `Scoring` adds the logarithms and roots
of the ranking formula.
-/

set_option autoImplicit false

namespace Retrieval

/-- Why a computation has no result. -/
inductive ArithmeticError where
  /-- The logarithm of a number that is not positive. -/
  | logarithmDomain
  | divisionByZero
  /-- The result is beyond all numbers of the type. -/
  | overflow
  /-- A value where a number is needed is none, or none of the kind that is needed. -/
  | notANumber

/-- The text of the error. -/
def ArithmeticError.message : ArithmeticError → String
  | .logarithmDomain => "math domain error"
  | .divisionByZero => "division by zero"
  | .overflow => "result too large"
  | .notANumber => "a number is needed"

/-- Numbers that can be added, compared and divided by counts. -/
class Scalar (α : Type) extends Zero α, Add α, Sub α, Mul α, BEq α where
  /-- A count. -/
  ofNat : Nat → α
  /-- The quotient of two counts, zero when the second is zero. -/
  share : Nat → Nat → α
  /-- The quotient by a count that is not zero. -/
  divNat : α → Nat → α
  /-- Whether the first number is smaller. -/
  lt : α → α → Bool
  /-- The whole part of a number that is not negative. -/
  floor : α → Nat

/-- Numbers with the operations of the ranking formula. -/
class Scoring (α : Type) extends Scalar α, Div α where
  /-- An integer, unless it is beyond all numbers of the type. -/
  ofInt? : Int → Option α
  /-- The quotient of two integers, the second not zero, unless it is beyond all numbers of the type. -/
  ratio? : Int → Int → Option α
  /-- The natural logarithm of a positive number. -/
  ln : α → α
  /-- The natural logarithm of a positive integer of any size. -/
  lnNat : Nat → α
  sqrt : α → α
  square : α → α

/-- A finite number, or none for an infinite one. -/
def finite? (x : Float) : Option Float := if x.isInf then none else some x

/-- A positive integer as a fraction from a half up to one and a power of two, rounded to the nearest. -/
def mantissaAndPower (n : Nat) : Float × Nat :=
  let bits := Nat.log2 n + 1
  let x := Numeral.nearest false n (Nat.pow 2 bits)
  if x < 1.0 then (x, bits) else (0.5, bits + 1)

/-- The logarithm of a positive integer, taken apart first when it is beyond all floating-point numbers. -/
def logNat (n : Nat) : Float :=
  match finite? (Numeral.nearestInt n) with
  | some x => x.log
  | none =>
    let (x, power) := mantissaAndPower n
    x.log + (2.0 : Float).log * Float.ofNat power

instance : Scoring Float where
  zero := 0.0
  ofNat := Float.ofNat
  share part whole := if whole = 0 then 0.0 else Numeral.nearest false part whole
  divNat x n := x / Float.ofNat n
  lt x y := x < y
  floor x := x.floor.toUInt64.toNat
  ofInt? n := finite? (Numeral.nearestInt n)
  ratio? a b := finite? (Numeral.nearestRatio a b)
  ln := Float.log
  lnNat := logNat
  sqrt := Float.sqrt
  square x := Float.pow x 2.0

/-- The sum of a list, from the left. -/
def sum {α : Type} [Zero α] [Add α] (xs : List α) : α := xs.foldl (· + ·) 0

end Retrieval
