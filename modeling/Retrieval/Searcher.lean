import Retrieval.Normalizer
import Retrieval.Query.Node
import Retrieval.Query.Parser
import Retrieval.Ranking

/-!
# Searching an index

A searcher answers boolean queries with the ids of the matching documents, and ranked queries with the best
documents and what the metadata say of them. Queries go through the normaliser of the documents.
-/

set_option autoImplicit false

namespace Retrieval
open Json (Value)

/-- The query languages. -/
inductive QueryMode where
  | boolean
  | ranked
  deriving DecidableEq

/-- An index with the settings of its searches. -/
structure Searcher (α : Type) where
  index : Index α
  normalizer : Normalizer
  /-- How many documents a ranked query lists, as a limit on the list of all of them. -/
  topK : Value
  mode : QueryMode
  /-- The score above which a document counts as retrieved. -/
  threshold : Value

/-- A listed document. -/
structure Listing (α : Type) where
  doc : Int
  title : Value
  authors : Value
  score : α

/-- What a query gives. -/
inductive Answer (α : Type) where
  | docs (ids : List Int)
  | listings (found : List (Listing α))

/-- Why a query has no answer. -/
inductive SearchError where
  | parse (e : Query.ParseError)
  | arithmetic (e : ArithmeticError)

/-- The first `k` elements of a list, or all but the last `-k` ones. -/
def cut {β : Type} (k : Int) (xs : List β) : List β :=
  xs.take (if k < 0 then xs.length - k.natAbs else k.toNat)

/-- The elements of a list that a limit leaves: so many as it says, all of them for null. A value that is no whole
number is no limit. -/
def limited {β : Type} (limit : Value) (xs : List β) : Except ArithmeticError (List β) :=
  match limit with
  | .null => .ok xs
  | .integer k => .ok (cut k xs)
  | .bool b => .ok (cut (if b then 1 else 0) xs)
  | _ => .error .notANumber

namespace Searcher

variable {α : Type}

/-- The documents that match a parsed query. -/
def matching (s : Searcher α) (q : Query) : List Int :=
  q.eval (fun name => s.index.docs (s.normalizer.stem name)) s.index.allDocs

/-- Answers a boolean query. -/
def boolean (s : Searcher α) (query : String) : Except Query.ParseError (List Int) :=
  (Query.parse query).result.map s.matching

variable [Scoring α]

/-- All documents that share a term with a query, with their scores. -/
def rankQuery (s : Searcher α) (query : String) : Except ArithmeticError (List (Hit α)) :=
  Ranking.rankIndex s.index (s.normalizer.terms query)

/-- A ranked document with its metadata. -/
def listing (s : Searcher α) (hit : Hit α) : Listing α where
  doc := hit.doc
  title := s.index.field hit.doc "title"
  authors := s.index.field hit.doc "authors"
  score := hit.score

/-- Answers a ranked query with the best documents, as many as asked for or as the searcher lists. -/
def ranked (s : Searcher α) (query : String) (topK : Option Value) :
    Except ArithmeticError (List (Listing α)) := do
  let hits ← s.rankQuery query
  return (← limited (topK.getD s.topK) hits).map s.listing

/-- Answers a query in the searcher's mode. -/
def answer (s : Searcher α) (query : String) : Except SearchError (Answer α) :=
  match s.mode with
  | .boolean => ((s.boolean query).map .docs).mapError .parse
  | .ranked => ((s.ranked query none).map .listings).mapError .arithmetic

/-- Answers several ranked queries in order; the answers do not depend on the number of workers. -/
def batch (s : Searcher α) (queries : List String) (workers : Value) :
    Except ArithmeticError (List (List (Listing α))) :=
  if workers.isNumber then queries.mapM fun query => s.ranked query none else .error .notANumber

end Searcher
end Retrieval
