import Retrieval.Corpus.FormatError
import Retrieval.Index.Basic
import Retrieval.Normalizer
import Retrieval.Weight

/-!
# Accumulating an index

Documents are added in strictly ascending order of their ids, so that postings ascend without being sorted. A
document that is out of order is refused and leaves no trace. An index can be taken at any time: it is a window
on the tables of the accumulator that were not empty then, so documents that are added later show through, while
its list of all documents stays what it was.
-/

set_option autoImplicit false

namespace Retrieval
open Json (Value)

/-- What has been added so far. -/
structure Accumulator (α : Type) where
  mode : AggregateMode
  entries : Table String Entry := ∅
  norms : Table Int α := ∅
  metadata : Table Int Metadata := ∅
  /-- The id of the last document. -/
  last : Option Int := none

/-- Each element of a list once, with the number of times it occurs, in the order of first occurrence. -/
def counts (ts : List String) : List (String × Nat) := ts.eraseDups.map fun t => (t, ts.count t)

/-- The terms of a document in code point order, each with the number of its occurrences. -/
def termCounts (terms : List String) : List (String × Nat) :=
  counts (terms.mergeSort fun a b => !decide (b < a))

namespace Accumulator

variable {α : Type}

/-- How much a term that occurs `tf` times in a document adds to its aggregate. -/
def increment (mode : AggregateMode) (tf : Nat) : Int :=
  match mode with
  | .occurrences => tf
  | .documents => 1

/-- The entry of a term after one more document. -/
def extendEntry (mode : AggregateMode) (doc : Int) (tf : Nat) (e : Option Entry) : Entry :=
  let e := e.getD ⟨0, []⟩
  ⟨e.aggregate + increment mode tf, e.postings ++ [⟨doc, tf⟩]⟩

/-- The entries after one more document with the given counts. -/
def extendEntries (mode : AggregateMode) (doc : Int) (entries : Table String Entry)
    (counted : List (String × Nat)) : Table String Entry :=
  counted.foldl (fun entries (term, tf) => entries.alter term (extendEntry mode doc tf)) entries

variable [Scoring α]

/-- Adds a document with its terms, in any order, and its metadata, if there are any. -/
def add (acc : Accumulator α) (doc : Int) (terms : List String) (metadata : Option Metadata) :
    Except Corpus.FormatError (Accumulator α) :=
  match acc.last.filter (doc ≤ ·) with
  | some previous => .error ⟨.documentAddedAfter doc previous, none⟩
  | none =>
    .ok
      { mode := acc.mode
        entries := extendEntries acc.mode doc acc.entries (termCounts terms)
        norms := acc.norms.insert doc (documentNorm ((termCounts terms).map Prod.snd))
        metadata := metadata.elim acc.metadata (acc.metadata.insert doc)
        last := some doc }

/-- The index of what has been added, with the given stop words in ascending order. -/
def index (acc : Accumulator α) (stopWords : Option (List Value)) : Index α :=
  .make acc.entries acc.norms acc.metadata acc.mode stopWords

end Accumulator

/-- An index taken while documents are being added: which tables it sees, and what was fixed when it was
taken. -/
structure Window where
  seesEntries : Bool
  seesNorms : Bool
  seesMetadata : Bool
  stopWords : Option (List Value)
  allDocs : List Int

namespace Accumulator

variable {α : Type}

/-- Takes an index of what has been added so far. -/
def window (acc : Accumulator α) (stopWords : Option (List Value)) : Window where
  seesEntries := !acc.entries.isEmpty
  seesNorms := !acc.norms.isEmpty
  seesMetadata := !acc.metadata.isEmpty
  stopWords := stopWords
  allDocs := ascendingDocs acc.norms

/-- What an index taken earlier holds by now. -/
def view (acc : Accumulator α) (w : Window) : Index α where
  entries := if w.seesEntries then acc.entries else ∅
  norms := if w.seesNorms then acc.norms else ∅
  metadata := if w.seesMetadata then acc.metadata else ∅
  mode := acc.mode
  stopWords := w.stopWords
  allDocs := w.allDocs

end Accumulator
end Retrieval
