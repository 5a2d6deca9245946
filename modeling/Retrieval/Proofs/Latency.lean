import Mathlib
import Retrieval.Measurement
import Retrieval.Proofs.DocumentScores
import Retrieval.Proofs.Mean

/-!
# Latency statistics are ordered

In exact arithmetic the statistics of one round of queries are the mean of the times and their percentiles: the least
time is that at zero, the median that at fifty and the greatest time that at a hundred (`ofTimes_eq`). So they are
ordered because percentiles rise, and the mean lies between the bounds of the times. An average over rounds is taken of
each statistic on its own; it keeps any order that the statistics have in every round (`inOrder_average`).
-/

set_option autoImplicit false

namespace Retrieval
namespace Latency
open Exact

/-! ### Extremes -/

section

variable {times : List ℝ}

theorem min?_eq_least (nonempty : times ≠ []) : times.min? = some (least times) := by
  obtain ⟨x, xs, rfl⟩ := List.exists_cons_of_ne_nil nonempty
  have step : (fun best x : ℝ => if Scalar.lt x best then x else best) = min := by
    funext best x
    simp only [Exact.lt_iff]
    rw [min_comm, min_def_lt]
  rw [List.min?_cons', least, step]
  rfl

theorem max?_eq_greatest (nonempty : times ≠ []) : times.max? = some (greatest times) := by
  obtain ⟨x, xs, rfl⟩ := List.exists_cons_of_ne_nil nonempty
  have step : (fun best x : ℝ => if Scalar.lt best x then x else best) = max := by
    funext best x
    simp only [Exact.lt_iff]
    rw [max_def_lt]
  rw [List.max?_cons', greatest, step]
  rfl

/-- The least time is the percentile below which nothing lies. -/
theorem least_eq (times : List ℝ) : least times = percentile 0 times := by
  rcases eq_or_ne times [] with rfl | nonempty
  · rw [percentile_nil]
    rfl
  · obtain ⟨mem, bound⟩ := List.min?_eq_some_iff.1 (min?_eq_least nonempty)
    apply le_antisymm
    · rw [percentile_zero]
      exact bound _ (memberAt_mem nonempty (Nat.zero_le _))
    · exact (mem_Icc_percentile mem).1

theorem greatest_eq (times : List ℝ) : greatest times = percentile 100 times := by
  rcases eq_or_ne times [] with rfl | nonempty
  · rw [percentile_nil]
    rfl
  · obtain ⟨mem, bound⟩ := List.max?_eq_some_iff.1 (max?_eq_greatest nonempty)
    apply le_antisymm
    · exact (mem_Icc_percentile mem).2
    · rw [percentile_hundred]
      exact bound _ (memberAt_mem nonempty le_rfl)

end

/-! ### Order -/

/-- The order of the statistics: the percentiles rise from the least to the greatest time, and the mean lies between
these two. -/
structure Statistics.InOrder (s : Statistics ℝ) : Prop where
  min_le_median : s.min ≤ s.median
  median_le_p95 : s.median ≤ s.p95
  p95_le_p99 : s.p95 ≤ s.p99
  p99_le_max : s.p99 ≤ s.max
  min_le_mean : s.min ≤ s.mean
  mean_le_max : s.mean ≤ s.max

/-- What the statistics of one round are in exact arithmetic. -/
theorem ofTimes_eq (times : List ℝ) : ofTimes times =
    { mean := times.sum / times.length, median := percentile 50 times, p95 := percentile 95 times,
      p99 := percentile 99 times, min := percentile 0 times, max := percentile 100 times } := by
  rw [ofTimes, Exact.mean_eq, median_eq, percentile_eq, percentile_eq, least_eq, greatest_eq]

theorem inOrder_ofTimes (times : List ℝ) : (ofTimes times).InOrder := by
  have rises := percentile_mono times
  have mean := mean_mem_Icc_percentile times
  rw [Exact.mean_eq] at mean
  rw [ofTimes_eq]
  constructor
  case min_le_median => exact rises (by decide)
  case median_le_p95 => exact rises (by decide)
  case p95_le_p99 => exact rises (by decide)
  case p99_le_max => exact rises (by decide)
  case min_le_mean => exact mean.1
  case mean_le_max => exact mean.2

/-- Means over the rounds keep the order of the statistics. -/
theorem inOrder_average {rounds : List (Statistics ℝ)} (each : ∀ s ∈ rounds, s.InOrder) : (average rounds).InOrder where
  min_le_median := mean_map_le fun s mem => (each s mem).min_le_median
  median_le_p95 := mean_map_le fun s mem => (each s mem).median_le_p95
  p95_le_p99 := mean_map_le fun s mem => (each s mem).p95_le_p99
  p99_le_max := mean_map_le fun s mem => (each s mem).p99_le_max
  min_le_mean := mean_map_le fun s mem => (each s mem).min_le_mean
  mean_le_max := mean_map_le fun s mem => (each s mem).mean_le_max

theorem inOrder_measure (queries rounds : ℕ) (readings : List ℝ) : (measure queries rounds readings).InOrder := by
  apply inOrder_average
  rw [List.forall_mem_map]
  intro round _
  exact inOrder_ofTimes (times round)

/-- **Latency statistics are ordered.** In exact arithmetic the statistics of a round are the mean of its times and
their percentiles, on lines between neighbours in ascending order. For queries that can all be ranked, at least one of
them, and at least one round, there are statistics, and whatever the clock reads they are ordered: the least time, the
median, the two high percentiles and the greatest time, with the mean between the first and the last. Otherwise the
error of the first query that cannot be ranked is the result. -/
theorem latency_inOrder :
    (∀ times : List ℝ, ofTimes times =
      { mean := times.sum / times.length, median := percentile 50 times, p95 := percentile 95 times,
        p99 := percentile 99 times, min := percentile 0 times, max := percentile 100 times }) ∧
    ∀ (s : Searcher ℝ) (queries : List String) (rounds : ℕ) (clock : List ℝ), queries ≠ [] → 0 < rounds →
      match queries.mapM s.rankQuery with
      | .ok _ => ∃ statistics, s.latency queries rounds clock = .ok (some statistics) ∧ statistics.InOrder
      | .error e => s.latency queries rounds clock = .error (.arithmetic e) := by
  refine ⟨ofTimes_eq, fun s queries rounds clock nonempty positive => ?_⟩
  rw [Searcher.latency, if_neg (by simpa using nonempty), if_neg positive.ne']
  cases queries.mapM s.rankQuery with
  | ok ranked => exact ⟨_, rfl, inOrder_measure _ _ _⟩
  | error e => rfl

/-- Two queries, one of which finds nothing, are timed in two rounds. -/
theorem latency_inOrder_of_two_rounds :
    let s : Searcher ℝ := ⟨Ranking.sample, Normalizer.ofWords [] id, .integer 10, .ranked, .integer 0⟩
    let queries := ["ab", "an"]
    queries ≠ [] ∧ 0 < 2 ∧
      ∃ statistics, s.latency queries 2 [0, 3, 3, 4, 4, 9, 9, 10] = .ok (some statistics) ∧ statistics.InOrder := by
  intro s queries
  have nonempty : queries ≠ [] := List.cons_ne_nil _ _
  have each : ∀ query ∈ queries, ∃ hits, s.rankQuery query = .ok hits := by
    intro query _
    obtain ⟨-, hits, -, -, ranked, -⟩ :=
      Ranking.exists_rankIndex (Exact.ordered _) Ranking.rankable_sample le_rfl (s.normalizer.terms query)
    exact ⟨hits, ranked⟩
  obtain ⟨ranked, all⟩ := exists_of_forall_mapM each
  have timed := latency_inOrder.2 s queries 2 [0, 3, 3, 4, 4, 9, 9, 10] nonempty (by decide)
  rw [all] at timed
  exact ⟨nonempty, by decide, timed⟩

end Latency
end Retrieval
