import Retrieval.Scalar

/-!
# Term weights and document norms

A term that occurs `tf` times in a document weighs `1 + ln tf` there, and a document's norm is the Euclidean
norm of its weights. Across the corpus a term weighs `ln (1 + N / a) ^ 2`, where `N` is the size of the corpus
and `a` the term's aggregate.
-/

set_option autoImplicit false

namespace Retrieval

variable {α : Type} [Scoring α]

/-- A quantity given from outside: an exact integer of any size, a number of the scalar type, or something that is
no number, which is an error only where it is needed. -/
inductive Quantity (α : Type) where
  | integer (n : Int)
  | real (x : α)
  | invalid

/-- The quantity as a scalar. -/
def Quantity.toScalar : Quantity α → Except ArithmeticError α
  | .integer n => (Scoring.ofInt? n).elim (.error .overflow) .ok
  | .real x => .ok x
  | .invalid => .error .notANumber

/-- Whether the quantity is the number zero. -/
def Quantity.isZero : Quantity α → Bool
  | .integer n => n = 0
  | .real x => x == 0
  | .invalid => false

/-- The natural logarithm of a scalar. -/
def logarithm (x : α) : Except ArithmeticError α :=
  if Scalar.lt x 0 || x == 0 then .error .logarithmDomain else .ok (Scoring.ln x)

/-- The natural logarithm of a quantity. -/
def Quantity.logarithm : Quantity α → Except ArithmeticError α
  | .integer n => if n ≤ 0 then .error .logarithmDomain else .ok (Scoring.lnNat n.toNat)
  | .real x => Retrieval.logarithm x
  | .invalid => .error .notANumber

/-- The quotient of two scalars. -/
def quotient (x y : α) : Except ArithmeticError α := if y == 0 then .error .divisionByZero else .ok (x / y)

/-- The quotient of two quantities: integers are divided exactly before the result is rounded. That one of them is no
number is found before the size of the other. -/
def Quantity.ratio : Quantity α → Quantity α → Except ArithmeticError α
  | .invalid, _ | _, .invalid => .error .notANumber
  | .integer a, .integer b =>
    if b = 0 then .error .divisionByZero else (Scoring.ratio? a b).elim (.error .overflow) .ok
  | a, b => do
    let x ← a.toScalar
    let y ← b.toScalar
    quotient x y

/-- The weight of a term that occurs so many times in a document, at least once. -/
def occurrenceWeight (tf : Nat) : α := Scalar.ofNat 1 + Scoring.lnNat tf

/-- The weight of a term that occurs so often in a document, for any quantity. -/
def Quantity.weight (tf : Quantity α) : Except ArithmeticError α :=
  tf.logarithm.map (Scalar.ofNat 1 + ·)

/-- The Euclidean norm of a list of weights. -/
def euclideanNorm (weights : List α) : α := Scoring.sqrt (sum (weights.map Scoring.square))

/-- The norm of a document in which the terms occur so many times. -/
def documentNorm (tfs : List Nat) : α := euclideanNorm (tfs.map occurrenceWeight)

/-- The norm of a document in which the terms occur so often, for any quantities. -/
def Quantity.documentNorm (tfs : List (Quantity α)) : Except ArithmeticError α :=
  (tfs.mapM Quantity.weight).map euclideanNorm

/-- The weight of a term with the given aggregate in a corpus of the given size. -/
def corpusWeight (corpusSize aggregate : Quantity α) : Except ArithmeticError α := do
  let spread ← corpusSize.ratio aggregate
  let x ← logarithm (Scalar.ofNat 1 + spread)
  return Scoring.square x

end Retrieval
