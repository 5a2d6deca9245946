import Retrieval.Json.Value
import Retrieval.Mean

/-!
# Quality of rankings

Measures of a ranked list against the documents judged relevant. Precision and recall look at the documents
that score above a threshold, precision at a cut-off at the first ones, and average precision at the ranks of
all relevant documents. A document judged relevant more than once counts once.
-/

set_option autoImplicit false

namespace Retrieval
open Json (Value)

/-- A document of a ranked list with its score. -/
structure Hit (α : Type) where
  doc : Int
  score : α

namespace Quality

variable {α : Type} [Scalar α]

/-- The documents that score above the threshold. -/
def retrieved (threshold : α) (ranked : List (Hit α)) : List Int :=
  (ranked.filter fun hit => Scalar.lt threshold hit.score).map Hit.doc

/-- How many of the documents are relevant. -/
def hits (relevant docs : List Int) : Nat := docs.countP relevant.contains

/-- The number of documents judged relevant. -/
def judged (relevant : List Int) : Nat := relevant.eraseDups.length

/-- The share of relevant documents among the given ones. -/
def precisionOf (relevant docs : List Int) : α := Scalar.share (hits relevant docs) docs.length

/-- The share of the relevant documents that are among the given ones. -/
def recallOf (relevant docs : List Int) : α := Scalar.share (hits relevant docs) (judged relevant)

/-- The share of relevant documents among those above the threshold. -/
def precisionAbove (relevant : List Int) (threshold : α) (ranked : List (Hit α)) : α :=
  precisionOf relevant (retrieved threshold ranked)

/-- The share of the relevant documents that lie above the threshold. -/
def recallAbove (relevant : List Int) (threshold : α) (ranked : List (Hit α)) : α :=
  recallOf relevant (retrieved threshold ranked)

/-- The number of relevant documents among the first `k`, as a share of `k`; zero unless `k` is positive. -/
def precisionAt (relevant : List Int) (k : Int) (ranked : List (Hit α)) : α :=
  Scalar.share (hits relevant ((ranked.take k.toNat).map Hit.doc)) k.toNat

/-- Adds to `total` the precision at the rank of each relevant document, where `rank` documents with `found`
relevant ones among them come before. -/
def addPrecisions (relevant : List Int) (found rank : Nat) (total : α) : List Int → α
  | [] => total
  | doc :: docs =>
    if relevant.contains doc then
      addPrecisions relevant (found + 1) (rank + 1) (total + Scalar.share (found + 1) (rank + 1)) docs
    else addPrecisions relevant found (rank + 1) total docs

/-- The mean, over the relevant documents, of the precision at their ranks, zero for one that is not ranked. -/
def averagePrecision (relevant : List Int) (ranked : List (Hit α)) : α :=
  if relevant.isEmpty then 0
  else Scalar.divNat (addPrecisions relevant 0 0 0 (ranked.map Hit.doc)) (judged relevant)

/-- The measures of one query. -/
structure Row (α : Type) where
  query : Int
  precisionAbove : α
  recallAbove : α
  precisionAtCutoff : α
  averagePrecision : α

/-- The measures of a ranking for the query with the given number. -/
def row (query : Int) (relevant : List Int) (threshold : α) (cutoff : Int) (ranked : List (Hit α)) : Row α where
  query := query
  precisionAbove := precisionAbove relevant threshold ranked
  recallAbove := recallAbove relevant threshold ranked
  precisionAtCutoff := precisionAt relevant cutoff ranked
  averagePrecision := averagePrecision relevant ranked

/-- The measures of a run: those of each judged query, with the cut-off and the threshold as they were given. -/
structure Summary (α : Type) where
  rows : List (Row α)
  cutoff : Value
  threshold : Value

/-- The mean of one measure over the queries. -/
def Summary.meanOf (s : Summary α) (measure : Row α → α) : α := mean (s.rows.map measure)

/-- Scores the queries that have judgments, where `rank` answers a query. -/
def evaluate {ε : Type} (rank : String → Except ε (List (Hit α))) (queries : List (Int × String))
    (relevantTo : Int → List Int) (threshold : α) (cutoff : Int) : Except ε (List (Row α)) :=
  (queries.filter fun query => !(relevantTo query.1).isEmpty).mapM fun query => do
    let ranked ← rank query.2
    return row query.1 (relevantTo query.1) threshold cutoff ranked

end Quality
end Retrieval
