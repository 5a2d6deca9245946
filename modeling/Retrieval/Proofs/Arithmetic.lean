import Retrieval.Proofs.Steps
import Retrieval.Weight

/-!
# What ranking relies on of arithmetic

Ranking takes logarithms and divides, and both can fail. That they do not depends on a few facts about order and
rounding, which hold of exact numbers and of floating-point numbers alike (`Scoring.Ordered`): a sum is at least each of
two numbers that are not negative, and rounding keeps that. From these, a term that occurs weighs at least one in its
document, so the norm of a document with terms is at least one, and a corpus weight exists and is not negative.
-/

set_option autoImplicit false

namespace Retrieval

/-- The first number is at most the second. It is not if one of them has no place in the order of numbers. -/
def Scalar.Le {α : Type} [Scalar α] (x y : α) : Prop := Scalar.lt x y = true ∨ (y == x) = true

open Scalar (Le)

/-- A number that is neither negative nor zero is positive. -/
theorem Scalar.Le.pos {α : Type} [Scalar α] {x : α} (h : Le 0 x) (nonzero : (x == 0) = false) :
    Scalar.lt 0 x = true := by
  rcases h with pos | zero
  · exact pos
  · rw [nonzero] at zero
    cases zero

/-- Numbers whose operations keep their order, as far as ranking needs it, with quotients of counts up to `size`. All
of it holds of exact numbers, and of floating-point numbers with rounding to the nearest, where every number that is
not negative is at most its sum with another one. -/
structure Scoring.Ordered (α : Type) [Scoring α] (size : Nat) : Prop where
  zero_le_zero : Le (0 : α) 0
  zero_lt_one : Scalar.lt (0 : α) (Scalar.ofNat 1) = true
  le_trans {x y z : α} : Le x y → Le y z → Le x z
  lt_of_lt_of_le {x y z : α} : Scalar.lt x y = true → Le y z → Scalar.lt x z = true
  /-- A positive number is neither negative nor zero. -/
  of_pos {x : α} : Scalar.lt 0 x = true → Scalar.lt x 0 = false ∧ (x == 0) = false
  le_add_right {x y : α} : Le 0 x → Le 0 y → Le x (x + y)
  le_add_left {x y : α} : Le 0 x → Le 0 y → Le y (x + y)
  le_mul {x y : α} : Scalar.lt 0 x = true → Le (Scalar.ofNat 1) y → Le x (x * y)
  /-- The quotient of counts of which the first is not too large is a number. -/
  ratio {n : Nat} {a : Int} : n ≤ size → 0 < a → ∃ x : α, Scoring.ratio? n a = some x ∧ Le 0 x
  lnNat {n : Nat} : 1 ≤ n → Le (0 : α) (Scoring.lnNat n)
  ln {x : α} : Le (Scalar.ofNat 1) x → Le 0 (Scoring.ln x)
  sqrt_nonneg {x : α} : Le 0 x → Le 0 (Scoring.sqrt x)
  sqrt_pos {x : α} : Scalar.lt 0 x = true → Scalar.lt 0 (Scoring.sqrt x) = true
  one_le_sqrt {x : α} : Le (Scalar.ofNat 1) x → Le (Scalar.ofNat 1) (Scoring.sqrt x)
  square_nonneg {x : α} : Le 0 x → Le 0 (Scoring.square x)
  one_le_square {x : α} : Le (Scalar.ofNat 1) x → Le (Scalar.ofNat 1) (Scoring.square x)

namespace Scoring.Ordered

variable {α : Type} [Scoring α] {size : Nat}

theorem pos_of_one_le (ordered : Ordered α size) {x : α} (h : Le (Scalar.ofNat 1) x) : Scalar.lt 0 x = true :=
  ordered.lt_of_lt_of_le ordered.zero_lt_one h

theorem nonneg_of_one_le (ordered : Ordered α size) {x : α} (h : Le (Scalar.ofNat 1) x) : Le 0 x :=
  .inl (ordered.pos_of_one_le h)

theorem zero_le_one (ordered : Ordered α size) : Le (0 : α) (Scalar.ofNat 1) := .inl ordered.zero_lt_one

theorem one_le_one_add (ordered : Ordered α size) {x : α} (h : Le 0 x) :
    Le (Scalar.ofNat 1 : α) (Scalar.ofNat 1 + x) :=
  ordered.le_add_right ordered.zero_le_one h

theorem add_nonneg (ordered : Ordered α size) {x y : α} (hx : Le 0 x) (hy : Le 0 y) : Le 0 (x + y) :=
  ordered.le_trans hx (ordered.le_add_right hx hy)

/-! ### Weights and norms -/

/-- A term that occurs weighs at least one. -/
theorem one_le_occurrenceWeight (ordered : Ordered α size) {tf : Nat} (h : 1 ≤ tf) :
    Le (Scalar.ofNat 1 : α) (occurrenceWeight tf) :=
  ordered.one_le_one_add (ordered.lnNat h)

/-- Adding numbers that are not negative to one that is at least one keeps it so. -/
theorem one_le_foldl_add (ordered : Ordered α size) {xs : List α} (h : ∀ x ∈ xs, Le 0 x) {start : α}
    (hs : Le (Scalar.ofNat 1) start) : Le (Scalar.ofNat 1) (xs.foldl (· + ·) start) := by
  induction xs generalizing start with
  | nil => exact hs
  | cons x xs ih =>
    obtain ⟨hx, hxs⟩ := List.forall_mem_cons.1 h
    exact ih hxs (ordered.le_trans hs (ordered.le_add_right (ordered.nonneg_of_one_le hs) hx))

/-- A sum of numbers that are at least one is at least one, unless there are none. -/
theorem one_le_sum (ordered : Ordered α size) {xs : List α} (some : xs ≠ [])
    (h : ∀ x ∈ xs, Le (Scalar.ofNat 1) x) : Le (Scalar.ofNat 1) (sum xs) := by
  cases xs with
  | nil => exact absurd rfl some
  | cons x xs =>
    obtain ⟨hx, hxs⟩ := List.forall_mem_cons.1 h
    have first : Le (Scalar.ofNat 1) (0 + x) :=
      ordered.le_trans hx (ordered.le_add_left ordered.zero_le_zero (ordered.nonneg_of_one_le hx))
    exact ordered.one_le_foldl_add (fun y hy => ordered.nonneg_of_one_le (hxs y hy)) first

/-- The norm of a document with terms is at least one. -/
theorem one_le_documentNorm (ordered : Ordered α size) {tfs : List Nat} (some : tfs ≠ []) (h : ∀ tf ∈ tfs, 1 ≤ tf) :
    Le (Scalar.ofNat 1 : α) (documentNorm tfs) := by
  refine ordered.one_le_sqrt (ordered.one_le_sum (by simpa using some) fun x hx => ?_)
  obtain ⟨w, hw, rfl⟩ := List.mem_map.1 hx
  obtain ⟨tf, htf, rfl⟩ := List.mem_map.1 hw
  exact ordered.one_le_square (ordered.one_le_occurrenceWeight (h tf htf))

/-- A term with a positive aggregate has a corpus weight: the logarithm that is taken is that of a positive number. -/
theorem exists_corpusWeight (ordered : Ordered α size) {n : Nat} {a : Int} (small : n ≤ size) (pos : 0 < a) :
    ∃ spread : α, Scoring.ratio? n a = some spread ∧ Scalar.lt 0 (Scalar.ofNat 1 + spread) = true ∧
      corpusWeight (.integer n) (.integer a) = .ok (Scoring.square (Scoring.ln (Scalar.ofNat 1 + spread))) ∧
      Le 0 (Scoring.square (Scoring.ln (Scalar.ofNat 1 + spread))) := by
  obtain ⟨spread, quotient, nonneg⟩ := ordered.ratio small pos
  have one_le := ordered.one_le_one_add nonneg
  have positive := ordered.pos_of_one_le one_le
  refine ⟨spread, quotient, positive, ?_, ordered.square_nonneg (ordered.ln one_le)⟩
  have ratio : (Quantity.integer n : Quantity α).ratio (.integer a) = .ok spread := by
    rw [Quantity.ratio, if_neg (Int.ne_of_gt pos), quotient]
    rfl
  have log : logarithm (Scalar.ofNat 1 + spread) = .ok (Scoring.ln (Scalar.ofNat 1 + spread)) := by
    obtain ⟨negative, zero⟩ := ordered.of_pos positive
    rw [logarithm, negative, zero]
    rfl
  rw [corpusWeight, bind_eq ratio, bind_eq log]
  rfl

end Scoring.Ordered
end Retrieval
