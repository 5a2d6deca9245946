import Retrieval.Index.Basic
import Retrieval.Quality
import Retrieval.Sorting
import Retrieval.Weight

/-!
# Ranking

Documents are scored term by term with the cosine measure: each occurrence weight is multiplied by the term's
corpus weight, and the sum is divided by the document's norm and by the root of the sum of the corpus weights.
Documents come in descending order of their scores, and those with equal scores in ascending order of their ids.
-/

set_option autoImplicit false

namespace Retrieval.Ranking

variable {α : Type} [Scoring α]

/-- The scores of the documents seen so far, and the sum of the corpus weights of the terms seen so far. -/
structure Tally (α : Type) where
  scores : Table Int α
  total : α

/-- Adds a posting of a term with the given corpus weight. -/
def addPosting (weight : α) (scores : Table Int α) (p : Posting) : Except ArithmeticError (Table Int α) := do
  let w ← (Quantity.integer p.tf : Quantity α).weight
  return scores.alter p.doc fun score => score.getD 0 + w * weight

/-- Adds a term of the query; terms that are absent or have no positive aggregate add nothing. -/
def addTerm (entries : Table String Entry) (corpusSize : Quantity α) (tally : Tally α) (term : String) :
    Except ArithmeticError (Tally α) :=
  match (entries.get? term).filter (0 < ·.aggregate) with
  | none => .ok tally
  | some entry => do
    let weight ← corpusWeight corpusSize (.integer entry.aggregate)
    let scores ← entry.postings.foldlM (addPosting weight) tally.scores
    return ⟨scores, tally.total + weight⟩

/-- The score of a document as a share of its norm and the query's norm; a document whose norm is zero is not
ranked. -/
def normalize (queryNorm : α) (norm : Int → Quantity α) (scored : Int × α) :
    Except ArithmeticError (Option (Hit α)) := do
  if (norm scored.1).isZero then return none
  let score ← quotient scored.2 (queryNorm * (← (norm scored.1).toScalar))
  return some ⟨scored.1, score⟩

/-- Whether the first document comes before the second. -/
def before (a b : Hit α) : Bool := if a.score == b.score then a.doc < b.doc else Scalar.lt b.score a.score

/-- Scored documents, best first. A score without a place in the order of numbers comes neither before nor after
any other, and the document stays where the sorting leaves it. -/
def bestFirst (hits : List (Hit α)) : List (Hit α) :=
  if hits.all fun hit => placed hit.score then hits.mergeSort fun a b => !before b a
  else Sorting.sort before hits

/-- The documents that hold terms of the query, with their scores, best first. The size of the corpus is needed only
for terms that are found, and a norm only for a document that has a score. -/
def rank (entries : Table String Entry) (norm : Int → Quantity α) (corpusSize : Quantity α) (terms : List String) :
    Except ArithmeticError (List (Hit α)) := do
  let tally ← terms.foldlM (addTerm entries corpusSize) ⟨∅, 0⟩
  let queryNorm := Scoring.sqrt tally.total
  if queryNorm == 0 then return []
  let hits ← tally.scores.toList.mapM (normalize queryNorm norm)
  return bestFirst (hits.filterMap id)

/-- The norm of a document in a table of norms, zero without one. -/
def normIn (norms : Table Int α) (doc : Int) : Quantity α := .real ((norms.get? doc).getD 0)

/-- Ranks the documents of an index, in a corpus of the index's own size. -/
def rankIndex (ix : Index α) (terms : List String) : Except ArithmeticError (List (Hit α)) :=
  rank ix.entries (normIn ix.norms) (.integer ix.docCount) terms

end Retrieval.Ranking
