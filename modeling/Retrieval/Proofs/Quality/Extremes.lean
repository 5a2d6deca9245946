import Mathlib
import Retrieval.Proofs.Quality.AveragePrecision
import Retrieval.Proofs.Ranking

/-!
# The range of the quality measures

All measures are shares of a count in another that is at least as large, or a mean of such shares, so in exact arithmetic
they lie between zero and one (`share_mem`). That the relevant documents of a list are no more than those judged relevant
takes a list without repetitions (`hits_le_judged`), as rankings are (`Ranking.nodup_of_rank`). Average precision is one
exactly for lists that begin with all relevant documents (`leads_iff`), and zero exactly for lists without any.
-/

set_option autoImplicit false

namespace Retrieval.Quality
open scoped Exact

/-! ### Counts as sizes of sets -/

theorem judged_eq_card (relevant : List Int) : judged relevant = relevant.toFinset.card := by
  have same : relevant.eraseDups.toFinset = relevant.toFinset := by
    ext doc
    simp only [List.mem_toFinset, List.mem_eraseDups]
  rw [judged, ← same, List.toFinset_card_of_nodup (nodup_eraseDups relevant)]

section

variable {relevant docs : List Int} (distinct : docs.Nodup)
include distinct

/-- In a list without repetitions, the relevant documents are as many as the two sets have in common. -/
theorem hits_eq_card : hits relevant docs = (relevant.toFinset ∩ docs.toFinset).card := by
  have same : (docs.filter relevant.contains).toFinset = relevant.toFinset ∩ docs.toFinset := by
    ext doc
    simp [and_comm]
  rw [hits, List.countP_eq_length_filter, ← List.toFinset_card_of_nodup (distinct.filter _), same]

theorem hits_le_judged : hits relevant docs ≤ judged relevant := by
  rw [hits_eq_card distinct, judged_eq_card]
  exact Finset.card_le_card Finset.inter_subset_left

/-- A list has all relevant documents, and has them before any other, exactly if its first places are theirs. -/
theorem leads_iff :
    (hits relevant docs = judged relevant ∧ ∀ doc ∈ docs.take (hits relevant docs), doc ∈ relevant) ↔
      (docs.take (judged relevant)).toFinset = relevant.toFinset := by
  have card := List.toFinset_card_of_nodup ((List.take_sublist (judged relevant) docs).nodup distinct)
  constructor
  · rintro ⟨all, first⟩
    rw [all] at first
    have few : judged relevant ≤ docs.length := all ▸ List.countP_le_length
    refine Finset.eq_of_subset_of_card_le (fun doc mem => ?_) ?_
    · exact List.mem_toFinset.2 (first doc (List.mem_toFinset.1 mem))
    · rw [card, List.length_take_of_le few, judged_eq_card]
  · intro same
    have first : ∀ doc ∈ docs.take (judged relevant), doc ∈ relevant := fun doc mem =>
      List.mem_toFinset.1 (same ▸ List.mem_toFinset.2 mem)
    have counted : hits relevant (docs.take (judged relevant)) = (docs.take (judged relevant)).length :=
      List.countP_eq_length.2 fun doc mem => List.contains_iff_mem.2 (first doc mem)
    rw [← card, same, ← judged_eq_card] at counted
    have more : hits relevant (docs.take (judged relevant)) ≤ hits relevant docs :=
      (List.take_sublist _ docs).countP_le
    have all : hits relevant docs = judged relevant := le_antisymm (hits_le_judged distinct) (counted ▸ more)
    exact ⟨all, all.symm ▸ first⟩

end

/-! ### Shares -/

/-- A share of a count in one that is at least as large. -/
theorem share_mem {part whole : Nat} (le : part ≤ whole) : (Scalar.share part whole : ℚ) ∈ Set.Icc 0 1 := by
  show (part / whole : ℚ) ∈ Set.Icc 0 1
  have le : (part : ℚ) ≤ whole := by exact_mod_cast le
  exact ⟨by positivity, div_le_one_of_le₀ le (by positivity)⟩

theorem precisionOf_mem (relevant docs : List Int) : (precisionOf relevant docs : ℚ) ∈ Set.Icc 0 1 :=
  share_mem List.countP_le_length

theorem recallOf_mem {docs : List Int} (distinct : docs.Nodup) (relevant : List Int) :
    (recallOf relevant docs : ℚ) ∈ Set.Icc 0 1 :=
  share_mem (hits_le_judged distinct)

theorem precisionAt_mem (relevant : List Int) (k : Int) (ranked : List (Hit ℚ)) :
    precisionAt relevant k ranked ∈ Set.Icc 0 1 := by
  refine share_mem (List.countP_le_length.trans ?_)
  rw [List.length_map]
  exact List.length_take_le ..

theorem distinct_retrieved {ranked : List (Hit ℚ)} (distinct : (ranked.map Hit.doc).Nodup) (threshold : ℚ) :
    (retrieved threshold ranked).Nodup :=
  (List.filter_sublist.map Hit.doc).nodup distinct

/-! ### Average precision -/

section

variable {relevant : List Int} {ranked : List (Hit ℚ)}

/-- Average precision is at most the share of the relevant documents that are in the list. -/
theorem averagePrecision_le_recallOf :
    averagePrecision relevant ranked ≤ recallOf relevant (ranked.map Hit.doc) := by
  rw [averagePrecision_eq]
  exact div_le_div_of_nonneg_right (precisions_le_hits relevant _ le_rfl) (Nat.cast_nonneg _)

theorem averagePrecision_nonneg : 0 ≤ averagePrecision relevant ranked := by
  rw [averagePrecision_eq]
  exact div_nonneg (precisions_nonneg relevant _ 0 0) (Nat.cast_nonneg _)

theorem averagePrecision_eq_zero_iff :
    averagePrecision relevant ranked = 0 ↔ ∀ doc ∈ ranked.map Hit.doc, doc ∉ relevant := by
  have none : hits relevant (ranked.map Hit.doc) = 0 ↔ ∀ doc ∈ ranked.map Hit.doc, doc ∉ relevant := by
    simp [hits, List.countP_eq_zero]
  rw [averagePrecision_eq, div_eq_zero_iff, precisions_eq_zero_iff, none, Nat.cast_eq_zero]
  refine or_iff_left_of_imp fun zero doc _ mem => ?_
  exact absurd zero (judged_pos mem).ne'

theorem averagePrecision_eq_one_iff (distinct : (ranked.map Hit.doc).Nodup) :
    averagePrecision relevant ranked = 1 ↔
      relevant ≠ [] ∧ ((ranked.map Hit.doc).take (judged relevant)).toFinset = relevant.toFinset := by
  have le_hits := precisions_le_hits relevant (ranked.map Hit.doc) (le_refl 0)
  have le_judged : (hits relevant (ranked.map Hit.doc) : ℚ) ≤ judged relevant := by
    exact_mod_cast hits_le_judged distinct
  rw [averagePrecision_eq, ← leads_iff distinct, ← precisions_eq_hits_iff]
  constructor
  · intro one
    have some : (judged relevant : ℚ) ≠ 0 := by
      intro zero
      rw [zero, div_zero] at one
      exact zero_ne_one one
    have reached := (div_eq_one_iff_eq some).1 one
    refine ⟨?_, ?_, ?_⟩
    · rintro rfl
      exact some rfl
    · exact_mod_cast le_antisymm le_judged (reached ▸ le_hits)
    · exact le_antisymm le_hits (reached ▸ le_judged)
  · rintro ⟨some, all, first⟩
    obtain ⟨doc, mem⟩ := List.exists_mem_of_ne_nil relevant some
    have pos : (judged relevant : ℚ) ≠ 0 := by exact_mod_cast (judged_pos mem).ne'
    rw [first, all, div_self pos]

end

/-- **The range of the quality measures.** A ranked list without repetitions, such as every ranking is, is measured
against documents judged relevant, some perhaps more than once. In exact arithmetic precision and recall above any
threshold, precision at any cut-off and average precision lie between zero and one. Average precision is at most the
share of the relevant documents that the list holds. It is one exactly if there are relevant documents and the list
begins with all of them, and zero exactly if it holds none. -/
theorem measures_range :
    (∀ (relevant : List Int) (threshold : ℚ) (k : Int) (ranked : List (Hit ℚ)), (ranked.map Hit.doc).Nodup →
      let wanted := relevant.toFinset
      let docs := ranked.map Hit.doc
      precisionAbove relevant threshold ranked ∈ Set.Icc 0 1 ∧ recallAbove relevant threshold ranked ∈ Set.Icc 0 1 ∧
        precisionAt relevant k ranked ∈ Set.Icc 0 1 ∧ averagePrecision relevant ranked ∈ Set.Icc 0 1 ∧
        averagePrecision relevant ranked ≤ ((wanted ∩ docs.toFinset).card : ℚ) / wanted.card ∧
        (averagePrecision relevant ranked = 1 ↔ wanted.Nonempty ∧ (docs.take wanted.card).toFinset = wanted) ∧
        (averagePrecision relevant ranked = 0 ↔ ∀ doc ∈ docs, doc ∉ wanted)) ∧
    ∀ (α : Type) [Scoring α] (entries : Table String Entry) (norm : Int → Quantity α) (corpusSize : Quantity α)
      (terms : List String) (hits : List (Hit α)), Ranking.rank entries norm corpusSize terms = .ok hits →
        (hits.map Hit.doc).Nodup := by
  refine ⟨fun relevant threshold k ranked distinct => ?_, fun _ _ _ _ _ _ _ ranked => Ranking.nodup_of_rank ranked⟩
  intro wanted docs
  have held := recallOf_mem distinct relevant
  refine ⟨precisionOf_mem _ _, recallOf_mem (distinct_retrieved distinct threshold) _, precisionAt_mem _ _ _,
    ⟨averagePrecision_nonneg, averagePrecision_le_recallOf.trans held.2⟩, ?_, ?_, ?_⟩
  · rw [← judged_eq_card, ← hits_eq_card distinct]
    exact averagePrecision_le_recallOf
  · rw [averagePrecision_eq_one_iff distinct, ← judged_eq_card, List.toFinset_nonempty_iff]
  · simp only [averagePrecision_eq_zero_iff, wanted, List.mem_toFinset, docs]

/-- Two relevant documents, one of them judged twice, come first in a list of three. -/
theorem measures_range_of_first_places :
    let ranked : List (Hit ℚ) := [⟨9, 1⟩, ⟨3, 1 / 2⟩, ⟨7, 1 / 4⟩]
    (ranked.map Hit.doc).Nodup ∧ averagePrecision [3, 9, 3] ranked = 1 ∧
      recallAbove [3, 9, 3] (1 / 2) ranked ∈ Set.Icc 0 1 := by
  intro ranked
  have distinct : (ranked.map Hit.doc).Nodup := by decide
  obtain ⟨-, share, -, -, -, one, -⟩ := measures_range.1 [3, 9, 3] (1 / 2) 2 ranked distinct
  exact ⟨distinct, one.2 ⟨by decide, by decide⟩, share⟩

end Retrieval.Quality
