import Retrieval.Mean

/-!
# Latency of queries

Query times come from the readings of a clock, one before and one after each query, in seconds. Each round
over all queries has its statistics in milliseconds, and each statistic is averaged over the rounds.
-/

set_option autoImplicit false

namespace Retrieval.Latency

variable {α : Type} [Scalar α]

/-- The statistics of a list of times. -/
structure Statistics (α : Type) where
  mean : α
  median : α
  p95 : α
  p99 : α
  min : α
  max : α

/-- The times between the first and second, the third and fourth reading, and so on, in milliseconds. -/
def times : List α → List α
  | start :: stop :: rest => (stop - start) * Scalar.ofNat 1000 :: times rest
  | _ => []

/-- The least number of a list. -/
def least (xs : List α) : α := xs.tail.foldl (fun best x => if Scalar.lt x best then x else best) (xs.headD 0)

/-- The greatest number of a list. -/
def greatest (xs : List α) : α := xs.tail.foldl (fun best x => if Scalar.lt best x then x else best) (xs.headD 0)

/-- The statistics of the times of one round. -/
def ofTimes (times : List α) : Statistics α where
  mean := mean times
  median := orderStatistic medianOfSorted times
  p95 := orderStatistic (percentileOfSorted 95) times
  p99 := orderStatistic (percentileOfSorted 99) times
  min := least times
  max := greatest times

/-- The mean of each statistic over the rounds. -/
def average (rounds : List (Statistics α)) : Statistics α where
  mean := Retrieval.mean (rounds.map Statistics.mean)
  median := Retrieval.mean (rounds.map Statistics.median)
  p95 := Retrieval.mean (rounds.map Statistics.p95)
  p99 := Retrieval.mean (rounds.map Statistics.p99)
  min := Retrieval.mean (rounds.map Statistics.min)
  max := Retrieval.mean (rounds.map Statistics.max)

/-- The first `rounds` groups of `size` readings. -/
def split (size : Nat) : Nat → List α → List (List α)
  | 0, _ => []
  | rounds + 1, readings => readings.take size :: split size rounds (readings.drop size)

/-- The statistics of so many rounds over so many queries, timed by the readings. -/
def measure (queries rounds : Nat) (readings : List α) : Statistics α :=
  average ((split (2 * queries) rounds readings).map fun readings => ofTimes (times readings))

end Retrieval.Latency
