import Mathlib
import Retrieval.Proofs.DocumentScores
import Retrieval.Proofs.Numeral.Order

/-!
# Thresholds and cut-offs

In a list in descending order of scores, a document above the threshold has only such documents before it, so those
above it are the first ones (`above_eq_take`), and precision above the threshold is precision at a cut-off. A greater
threshold leaves fewer documents, so recall does not grow. All of this depends only on comparisons and on shares of
counts, as `Scalar.Consistent` has them, and holds of floating-point numbers as it does of exact ones.
-/

set_option autoImplicit false

namespace Retrieval

/-- A property that passes from later members to earlier ones holds of the first members, as many as have it. -/
theorem filter_eq_take {α : Type} {p : α → Bool} {xs : List α}
    (passes : xs.Pairwise fun a b => p b = true → p a = true) : xs.filter p = xs.take (xs.countP p) := by
  induction xs with
  | nil => rfl
  | cons x xs ih =>
    obtain ⟨first, others⟩ := List.pairwise_cons.1 passes
    by_cases h : p x = true
    · rw [List.filter_cons_of_pos h, List.countP_cons_of_pos h, List.take_succ_cons, ih others]
    · have none : ∀ y ∈ x :: xs, ¬ p y = true := List.forall_mem_cons.2 ⟨h, fun y mem above => h (first y mem above)⟩
      rw [List.filter_eq_nil_iff.2 none, List.countP_eq_zero.2 none, List.take_zero]

namespace Exact

/-- The rational numbers are consistent. -/
theorem consistent : Scalar.Consistent ℚ := by
  have lt_iff {x y : ℚ} : Scalar.lt x y = true ↔ x < y := decide_eq_true_iff
  have le_iff {x y : ℚ} : Scalar.Le x y ↔ x ≤ y := by
    rw [Scalar.Le, lt_iff, beq_iff_eq, le_iff_lt_or_eq, eq_comm (a := y)]
  constructor
  case lt_of_lt_of_le =>
    intro x y z hxy hyz
    exact lt_iff.2 ((lt_iff.1 hxy).trans_le (le_iff.1 hyz))
  case lt_of_le_of_lt =>
    intro x y z hxy hyz
    exact lt_iff.2 ((le_iff.1 hxy).trans_lt (lt_iff.1 hyz))
  case share_zero =>
    intro part
    exact div_zero _
  case share_mono =>
    intro part part' whole le
    apply le_iff.2
    exact div_le_div_of_nonneg_right (Nat.cast_le.2 le) (Nat.cast_nonneg whole)

end Exact

/-- Ranking lists documents in descending order of their scores, as far as these can be compared. -/
theorem Ranking.descending_of_rank {α : Type} [Scoring α] (compares : Scalar.Compares α) {entries : Table String Entry}
    {norm : Int → Quantity α} {corpusSize : Quantity α} {terms : List String} {hits : List (Hit α)}
    (h : rank entries norm corpusSize terms = .ok hits) (all : ∀ hit ∈ hits, placed hit.score = true) :
    hits.Pairwise fun a b => Scalar.Le b.score a.score := by
  obtain rfl | ⟨_, _, listed, -, rfl⟩ := cases_of_rank h
  · exact .nil
  · have ordered := ordered_bestFirst compares fun hit mem => all hit ((perm_bestFirst _).mem_iff.2 mem)
    exact ordered.imp fun order => order.imp_right And.left

namespace Quality
open scoped Exact

section

variable {α : Type} [Scalar α] {threshold : α} {ranked : List (Hit α)} (consistent : Scalar.Consistent α)
include consistent

/-- In descending order, the documents above a threshold are the first ones. -/
theorem above_eq_take (threshold : α) (descending : ranked.Pairwise fun a b => Scalar.Le b.score a.score) :
    ranked.filter (fun hit => Scalar.lt threshold hit.score) =
      ranked.take (ranked.countP fun hit => Scalar.lt threshold hit.score) := by
  apply filter_eq_take
  exact descending.imp fun le above => consistent.lt_of_lt_of_le above le

/-- Fewer documents lie above a greater threshold. -/
theorem retrieved_sublist {higher : α} (le : Scalar.Le threshold higher) :
    (retrieved higher ranked).Sublist (retrieved threshold ranked) := by
  apply List.Sublist.map
  apply List.monotone_filter_right
  intro hit above
  exact consistent.lt_of_le_of_lt le above

/-- Precision above a threshold is precision at the cut-off after the last document above it. -/
theorem precisionAbove_eq_precisionAt (relevant : List Int) (threshold : α)
    (descending : ranked.Pairwise fun a b => Scalar.Le b.score a.score) :
    precisionAbove relevant threshold ranked =
      precisionAt relevant (ranked.countP fun hit => Scalar.lt threshold hit.score) ranked := by
  have few : (ranked.countP fun hit => Scalar.lt threshold hit.score) ≤ ranked.length := List.countP_le_length
  rw [precisionAbove, precisionOf, retrieved, above_eq_take consistent threshold descending, precisionAt,
    Int.toNat_natCast, List.length_map, List.length_take_of_le few]

/-- Of fewer documents, fewer are relevant. -/
theorem recallAbove_le (relevant : List Int) (ranked : List (Hit α)) {threshold higher : α}
    (le : Scalar.Le threshold higher) :
    Scalar.Le (recallAbove relevant higher ranked) (recallAbove relevant threshold ranked) := by
  apply consistent.share_mono
  apply List.Sublist.countP_le
  exact retrieved_sublist consistent le

end

/-- **Thresholds are cut-offs.** In a list in descending order of scores, whatever its documents, those above a
threshold are the first `n`, where `n` is the number of scores that are greater. Precision above the threshold is
precision at the cut-off `n`, and zero if `n` is zero; recall above a threshold that is at least as great is not
greater. That is so for consistent numbers, among them floating-point numbers and rational ones. Every ranking whose
scores can be compared is such a list, and its documents are distinct. -/
theorem thresholds_are_cutoffs :
    (∀ (α : Type) [Scalar α], Scalar.Consistent α →
      ∀ (relevant : List Int) (threshold : α) (ranked : List (Hit α)),
        ranked.Pairwise (fun a b => Scalar.Le b.score a.score) →
          let n := ranked.countP fun hit => Scalar.lt threshold hit.score
          ranked.filter (fun hit => Scalar.lt threshold hit.score) = ranked.take n ∧
            retrieved threshold ranked = (ranked.take n).map Hit.doc ∧
            precisionAbove relevant threshold ranked = (if 0 < n then precisionAt relevant n ranked else 0) ∧
            ∀ higher, Scalar.Le threshold higher →
              Scalar.Le (recallAbove relevant higher ranked) (recallAbove relevant threshold ranked)) ∧
    Scalar.Consistent Float ∧ Scalar.Consistent ℚ ∧
    ∀ (α : Type) [Scoring α], Scalar.Compares α →
      ∀ (entries : Table String Entry) (norm : Int → Quantity α) (corpusSize : Quantity α) (terms : List String)
        (hits : List (Hit α)), Ranking.rank entries norm corpusSize terms = .ok hits →
          (∀ hit ∈ hits, placed hit.score = true) →
            hits.Pairwise (fun a b => Scalar.Le b.score a.score) ∧ (hits.map Hit.doc).Nodup := by
  refine ⟨fun α _ consistent relevant threshold ranked descending => ?_, consistent_float, Exact.consistent,
    fun α _ compares entries norm corpusSize terms hits h all =>
      ⟨Ranking.descending_of_rank compares h all, Ranking.nodup_of_rank h⟩⟩
  intro n
  have first := above_eq_take consistent threshold descending
  refine ⟨first, congrArg (List.map Hit.doc) first, ?_, fun higher le => recallAbove_le consistent relevant ranked le⟩
  rw [precisionAbove_eq_precisionAt consistent relevant threshold descending]
  split
  · rfl
  · rename_i none
    have zero : n = 0 := Nat.eq_zero_of_not_pos none
    show precisionAt relevant n ranked = 0
    rw [zero]
    exact consistent.share_zero _

/-- Two of four scores are those of the threshold, and the document above it is relevant. -/
theorem thresholds_are_cutoffs_of_tie :
    let ranked : List (Hit ℚ) := [⟨4, 9 / 10⟩, ⟨7, 3 / 5⟩, ⟨2, 3 / 5⟩, ⟨9, 3 / 10⟩]
    ranked.Pairwise (fun a b => Scalar.Le b.score a.score) ∧ retrieved (3 / 5) ranked = [4] ∧
      precisionAbove [2, 4] (3 / 5) ranked = precisionAt [2, 4] 1 ranked ∧
      Scalar.Le (3 / 5 : ℚ) (7 / 10) ∧
      Scalar.Le (recallAbove [2, 4] (7 / 10) ranked) (recallAbove [2, 4] (3 / 5) ranked) := by
  intro ranked
  have descending : ranked.Pairwise (fun a b => Scalar.Le b.score a.score) := by
    unfold Scalar.Le
    decide +kernel
  have higher : Scalar.Le (3 / 5 : ℚ) (7 / 10) := .inl (by decide +kernel)
  obtain ⟨-, above, precision, antitone⟩ :=
    thresholds_are_cutoffs.1 ℚ thresholds_are_cutoffs.2.2.1 [2, 4] (3 / 5) ranked descending
  have one : (ranked.countP fun hit => Scalar.lt (3 / 5) hit.score) = 1 := by decide +kernel
  rw [one] at above precision
  exact ⟨descending, above, precision, higher, antitone _ higher⟩

end Quality
end Retrieval
