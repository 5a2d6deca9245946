import Mathlib
import Retrieval.Mean

/-!
# Comparing numbers

Numbers that have a place in their order are compared as the elements of a linear order are (`Scalar.Compares`). That is
so for floating-point numbers, all of which have a place but the one that is not a number: the negative ones come first,
by descending exponent and mantissa, then the two zeros, which are equal, and the positive ones by ascending exponent and
mantissa, with the infinities at the ends (`compares_float`).
-/

set_option autoImplicit false

namespace Retrieval

/-- Placed numbers are compared as the elements of a linear order are. -/
def Scalar.Compares (α : Type) [Scalar α] : Prop :=
  ∃ (κ : Type) (_ : LinearOrder κ) (place : α → κ), ∀ x y : α, placed x = true → placed y = true →
    (Scalar.lt x y = true ↔ place x < place y) ∧ ((x == y) = true ↔ place x = place y)

namespace Numeral
open Float.Model

/-- The place of a number: its sign, with infinities beyond the others, and then its exponent and mantissa. -/
def place : UnpackedFloat → ℤ ×ₗ ℤ ×ₗ ℤ
  | .notANumber | .zero _ => toLex (0, toLex (0, 0))
  | .infinity .negative => toLex (-2, toLex (0, 0))
  | .infinity .positive => toLex (2, toLex (0, 0))
  | .finite .negative mantissa exponent _ => toLex (-1, toLex (-exponent, -(mantissa : ℤ)))
  | .finite .positive mantissa exponent _ => toLex (1, toLex (exponent, (mantissa : ℤ)))

/-- Exponents decide before mantissas. -/
theorem compare_finite (m n : ℕ) (d e : ℤ) :
    ((compare d e).then (compare m n) = .lt ↔ d < e ∨ d = e ∧ m < n) ∧
      ((compare d e).then (compare m n) = .gt ↔ e < d ∨ d = e ∧ n < m) ∧
      ((compare d e).then (compare m n) = .eq ↔ d = e ∧ m = n) := by
  refine ⟨?_, ?_, ?_⟩
  · rw [Ordering.then_eq_lt, compare_lt_iff_lt, compare_eq_iff_eq, compare_lt_iff_lt]
  · rw [Ordering.then_eq_gt, compare_gt_iff_gt, compare_eq_iff_eq, compare_gt_iff_gt]
  · rw [Ordering.then_eq_eq, compare_eq_iff_eq, compare_eq_iff_eq]

theorem compare_iff {x y : UnpackedFloat} (hx : x ≠ .notANumber) (hy : y ≠ .notANumber) :
    (x.compare y = some .lt ↔ place x < place y) ∧ (x.compare y = some .eq ↔ place x = place y) := by
  cases x with
  | notANumber => exact absurd rfl hx
  | infinity s =>
    cases y with
    | notANumber => exact absurd rfl hy
    | infinity s' => cases s <;> cases s' <;> simp [UnpackedFloat.compare, place, Prod.Lex.toLex_lt_toLex, compare]
    | zero s' => cases s <;> simp [UnpackedFloat.compare, place, Prod.Lex.toLex_lt_toLex]
    | finite s' m e pos => cases s <;> cases s' <;> simp [UnpackedFloat.compare, place, Prod.Lex.toLex_lt_toLex]
  | zero s =>
    cases y with
    | notANumber => exact absurd rfl hy
    | infinity s' => cases s' <;> simp [UnpackedFloat.compare, place, Prod.Lex.toLex_lt_toLex]
    | zero s' => simp [UnpackedFloat.compare, place]
    | finite s' m e pos => cases s' <;> simp [UnpackedFloat.compare, place, Prod.Lex.toLex_lt_toLex]
  | finite s m e pos =>
    cases y with
    | notANumber => exact absurd rfl hy
    | infinity s' => cases s <;> cases s' <;> simp [UnpackedFloat.compare, place, Prod.Lex.toLex_lt_toLex]
    | zero s' => cases s <;> simp [UnpackedFloat.compare, place, Prod.Lex.toLex_lt_toLex]
    | finite s' n d pos' =>
      obtain ⟨lt, gt, eq⟩ := compare_finite m n e d
      cases s <;> cases s' <;> simp [UnpackedFloat.compare, place, Prod.Lex.toLex_lt_toLex, lt, gt, eq]

theorem ne_notANumber_of_compare {x y : UnpackedFloat} {o : Ordering} (h : x.compare y = some o) :
    x ≠ .notANumber ∧ y ≠ .notANumber := by
  constructor
  · rintro rfl
    cases h
  · rintro rfl
    cases x <;> cases h

/-! ### Floating-point numbers -/

theorem lt_iff_compare {x y : Float} :
    Scalar.lt x y = true ↔ x.toModel.unpack.compare y.toModel.unpack = some .lt := by
  show decide (x < y) = true ↔ _
  rw [decide_eq_true_iff]
  show decide (x.toModel < y.toModel) = true ↔ _
  rw [decide_eq_true_iff]
  show x.toModel.unpack.lt y.toModel.unpack = true ↔ _
  rw [UnpackedFloat.lt, beq_iff_eq]

theorem beq_iff_compare {x y : Float} :
    (x == y) = true ↔ x.toModel.unpack.compare y.toModel.unpack = some .eq := by
  show x.toModel.unpack.beq y.toModel.unpack = true ↔ _
  rw [UnpackedFloat.beq, beq_iff_eq]

/-- What equals itself is a number. -/
theorem placed_iff {x : Float} : placed x = true ↔ x.toModel.unpack ≠ .notANumber := by
  rw [placed, beq_iff_compare]
  exact ⟨fun h => (ne_notANumber_of_compare h).1, fun h => (compare_iff h h).2.2 rfl⟩

theorem placed_of_compare {x y : Float} {o : Ordering} (h : x.toModel.unpack.compare y.toModel.unpack = some o) :
    placed x = true ∧ placed y = true := by
  rw [placed_iff, placed_iff]
  exact ne_notANumber_of_compare h

/-- One number is smaller than another if both have a place and its own comes first. -/
theorem lt_iff {x y : Float} : Scalar.lt x y = true ↔
    (placed x = true ∧ placed y = true) ∧ place x.toModel.unpack < place y.toModel.unpack := by
  have placed_of_lt : Scalar.lt x y = true → placed x = true ∧ placed y = true :=
    fun h => placed_of_compare (lt_iff_compare.1 h)
  rw [← and_iff_right_of_imp placed_of_lt, lt_iff_compare]
  exact and_congr_right fun h => (compare_iff (placed_iff.1 h.1) (placed_iff.1 h.2)).1

/-- Two numbers are equal if both have a place, and it is the same. -/
theorem beq_iff {x y : Float} : (x == y) = true ↔
    (placed x = true ∧ placed y = true) ∧ place x.toModel.unpack = place y.toModel.unpack := by
  have placed_of_beq : (x == y) = true → placed x = true ∧ placed y = true :=
    fun h => placed_of_compare (beq_iff_compare.1 h)
  rw [← and_iff_right_of_imp placed_of_beq, beq_iff_compare]
  exact and_congr_right fun h => (compare_iff (placed_iff.1 h.1) (placed_iff.1 h.2)).2

end Numeral

/-- Floating-point numbers are compared as the elements of a linear order are. -/
theorem compares_float : Scalar.Compares Float := by
  refine ⟨_, inferInstance, fun x => Numeral.place x.toModel.unpack, fun x y hx hy => ⟨?_, ?_⟩⟩
  · rw [Numeral.lt_iff, and_iff_right ⟨hx, hy⟩]
  · rw [Numeral.beq_iff, and_iff_right ⟨hx, hy⟩]

end Retrieval
