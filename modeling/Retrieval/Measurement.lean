import Retrieval.Corpus.Collection
import Retrieval.Corpus.Judgments
import Retrieval.Latency
import Retrieval.Searcher

/-!
# Measuring a searcher

The quality of a searcher's rankings against judgments, and the time that its queries take. Queries are ranked in
order, and the first that cannot be ranked ends a measurement.
-/

set_option autoImplicit false

namespace Retrieval
open Json (Value)

/-- Why there are no latency statistics. -/
inductive LatencyError where
  | arithmetic (e : ArithmeticError)
  /-- There were queries and no round over them. -/
  | noRounds

/-- The number that a threshold is. -/
def thresholdOf? : Value → Option Float
  | .real x => some x
  | .integer n => some (Numeral.nearestInt n)
  | .bool b => some (if b then 1 else 0)
  | _ => none

/-- The number of first places that a cut-off is: a whole number, where every number up to zero stands for none. -/
def cutoffOf? : Value → Option Int
  | .integer n => some n
  | .bool b => some (if b then 1 else 0)
  | .real x => if x ≤ 0 then some 0 else none
  | _ => none

/-- A ranking that can be measured: its scores, if there are any, are compared with a threshold, and its first
places are counted up to a cut-off. -/
def measurable {α : Type} (threshold : Option Float) (cutoff : Option Int) (ranked : List (Hit α)) :
    Except ArithmeticError (List (Hit α)) :=
  if threshold.isNone && !ranked.isEmpty || cutoff.isNone then .error .notANumber else .ok ranked

/-- The documents of a given ranking that score above a given threshold; every score is compared with it. -/
def documentsAbove (threshold : Value) (ranked : List (Int × Value)) : Except ArithmeticError (List Int) := do
  let retrieved ← ranked.filterM fun (_, score) => (threshold.lt? score).elim (.error .notANumber) .ok
  return retrieved.map Prod.fst

namespace Searcher

/-- The quality of the rankings for numbered queries, with the searcher's threshold unless another is given. -/
def evaluate (s : Searcher Float) (queries : List (Int × String)) (judgments : Corpus.Judgments)
    (threshold : Option Value) (cutoff : Value) : Except ArithmeticError (Quality.Summary Float) := do
  let threshold := threshold.getD s.threshold
  let rank query := do measurable (thresholdOf? threshold) (cutoffOf? cutoff) (← s.rankQuery query)
  let rows ← Quality.evaluate rank queries judgments.docs ((thresholdOf? threshold).getD 0)
    ((cutoffOf? cutoff).getD 0)
  return ⟨rows, cutoff, threshold⟩

variable {α : Type} [Scoring α]

/-- The statistics of so many rounds over the queries, timed by the readings of a clock, none without a query. -/
def latency (s : Searcher α) (queries : List String) (rounds : Nat) (clock : List α) :
    Except LatencyError (Option (Latency.Statistics α)) :=
  if queries.isEmpty then .ok none
  else if rounds = 0 then .error .noRounds
  else
    match queries.mapM s.rankQuery with
    | .error e => .error (.arithmetic e)
    | .ok _ => .ok (some (Latency.measure queries.length rounds clock))

end Searcher

/-- The queries of a file as numbered texts. -/
def numberedQueries (queries : List Corpus.Query) : List (Int × String) :=
  queries.map fun q => ((q.number : Int), q.text)

end Retrieval
